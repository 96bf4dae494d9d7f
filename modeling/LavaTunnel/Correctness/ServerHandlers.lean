import LavaTunnel.Protocol

/-!
# `LavaTunnel.Correctness.ServerHandlers` — what each handler of `tunnelServer` does

One lemma a handler, as for `mcConnect`: on any input that starts with a complete payload it takes just the
payload, and this is the state it leaves and this is what it writes. A handler that takes more or less than
the payload of its packet, and a handler that does not send what it took, are found here too.
-/

namespace LavaTunnel

open Wire Wire.Prog

namespace Server

variable (env : Env) {payload : Bytes} (t : Tunnel)

/-! ## Login -/

/-- The state after a login. -/
def loggedIn (payload : Bytes) (t : Tunnel) : Tunnel :=
  { t with
    unused := (field payload 129 1).headD t.unused
    tunnelUser := cleanString env t.tunnelUser (field payload 1 64)
    loggedIn := true
    cuboid := { t.cuboid with start := false } }

theorem takes_login (h : payload.length = 130) :
    (login env).Takes payload t (some { fucked := true }) (loggedIn env payload t) [] := by
  intro rest
  simp (disch := omega) only [login, run_recvVarW_first, run_recvVarW_field, run_recvW_field, run_update_bind,
    run_pure, drop_length_append h, loggedIn]

/-- The first login is handled. -/
theorem dispatch_login {l : ServerLocals} (hl : l.fucked = false) : dispatch env 0x00 l = login env :=
  if_pos ⟨rfl, hl⟩

/-- A further login is not: only its id is taken. -/
theorem takes_dispatch_relogin {l : ServerLocals} (hl : l.fucked = true) :
    (dispatch env 0x00 l).Takes [] t (some l) t [] := by
  intro rest
  unfold dispatch
  rw [if_neg (by simp [hl])]
  rfl

/-! ## Clicks, positions, chat -/

/-- The calls that pass a click on. -/
def clickCalls (payload : Bytes) (t : Tunnel) : List Call :=
  [.sendW [0x05], .sendW (field payload 0 2), .sendW (field payload 2 2), .sendW (field payload 4 2),
    .sendW (if t.paint then [1] else field payload 6 1),
    .sendW (if t.paint then [t.paintBid] else field payload 7 1)]

theorem takes_setBlockClick (hz : t.zPlace = false) (h : payload.length = 8) :
    (setBlockClick env).Takes payload t (some ()) t (written tunnelSock (clickCalls payload t)) := by
  intro rest
  simp (disch := omega) only [setBlockClick, run_recvVarW_first, run_recvVarW_field, run_getState_bind,
    drop_length_append h, hz, Bool.false_eq_true, if_false, run_packet, clickCalls]

/-- While points are being set the click is one of them. -/
theorem takes_setBlockClick_point (hz : t.zPlace = true) (h : payload.length = 8) {r : Option Unit}
    {t' : Tunnel} {out : List (Socket × Bytes)}
    (hpoint : (point (field payload 0 2) (field payload 2 2) (field payload 4 2)
      (byte (field payload 7 1))).Takes [] t r t' out) :
    (setBlockClick env).Takes payload t r t' out := by
  intro rest
  simp (disch := omega) only [setBlockClick, run_recvVarW_first, run_recvVarW_field, run_getState_bind,
    drop_length_append h, hz, if_true]
  exact hpoint rest

/-- The state with the position of the client. -/
def moved (payload : Bytes) (t : Tunnel) : Tunnel :=
  { t with user := { t.user with
      x := (host (field payload 1 2)).toInt16
      y := (host (field payload 3 2)).toInt16
      z := (host (field payload 5 2)).toInt16
      yaw := byte (field payload 7 1)
      pitch := byte (field payload 8 1) } }

theorem takes_posUpdate (hh : t.hide = false) (h : payload.length = 9) :
    (posUpdate env).Takes payload t (some ()) (moved payload t)
      (written tunnelSock [.sendW [0x08], .sendW (field payload 0 1), .sendW (field payload 1 2),
        .sendW (field payload 3 2), .sendW (field payload 5 2), .sendW (field payload 7 1),
        .sendW (field payload 8 1)]) := by
  intro rest
  simp (disch := omega) only [posUpdate, run_recvVarW_first, run_recvVarW_field, run_getState_bind,
    drop_length_append h, hh, if_true, run_update_bind, run_packet, moved]

/-- While hidden the position is kept in other fields. -/
theorem takes_posUpdate_hidden (hh : t.hide = true) (h : payload.length = 9) :
    (posUpdate env).Takes payload t (some ())
      { t with user := { t.user with
        hx := (host (field payload 1 2)).toInt16
        hy := (host (field payload 3 2)).toInt16
        hz := (host (field payload 5 2)).toInt16
        hyaw := byte (field payload 7 1)
        hpitch := byte (field payload 8 1) } } [] := by
  intro rest
  simp (disch := omega) only [posUpdate, run_recvVarW_first, run_recvVarW_field, run_getState_bind,
    drop_length_append h, hh, Bool.true_eq_false, if_false, run_update]

/-- What follows the fields of a chat message. -/
theorem takes_chatMessage_tail (h : payload.length = 65) {r : Option Unit} {t' : Tunnel}
    {out : List (Socket × Bytes)}
    (htail : (if isCommand env (field payload 1 64) then
        chatCommand env ((cleanMessage env (field payload 1 64)).drop 1)
      else do
        let t ← getState
        if t.gimped ∧ byte (field payload 1 64) ≠ 47 then
          onlyIf (byte (field payload 0 1) = 0) (gimpMessage env (byte (field payload 0 1)))
        else sendMessage (byte (field payload 0 1)) (field payload 1 64)).Takes [] t r t' out) :
    (chatMessage env).Takes payload t r t' out := by
  intro rest
  simp (disch := omega) only [chatMessage, run_recvVarW_first, run_recvVarW_field, drop_length_append h]
  exact htail rest

theorem takes_chatMessage (hg : t.gimped = false) (hc : isCommand env (field payload 1 64) = false)
    (h : payload.length = 65) :
    (chatMessage env).Takes payload t (some ()) t
      (written tunnelSock [.sendW [0x0d], .sendW [byte (field payload 0 1)],
        .sendW (toMCString (field payload 1 64))]) := by
  intro rest
  simp (disch := omega) only [chatMessage, run_recvVarW_first, run_recvVarW_field, run_getState_bind,
    drop_length_append h, hc, hg, Bool.false_eq_true, if_false, false_and, sendMessage, run_packet]

/-! ## CPE -/

theorem takes_extInfo (h : payload.length = 66) :
    (extInfo env).Takes payload t (some ()) t
      (written tunnelSock [.sendW [0x10], .sendW (field payload 0 64),
        .sendW (bytesOf (htons (host (field payload 64 2) - 1)))]) := by
  intro rest
  simp (disch := omega) only [extInfo, run_recvVarW_first, run_recvVarW_field, run_packet,
    drop_length_append h]

theorem takes_extEntry (h : payload.length = 68) :
    (extEntry env).Takes payload t (some ())
      { t with cpeServer := Client.announce env (field payload 0 64) t.cpeServer }
      (written tunnelSock [.sendW [0x11], .sendW (field payload 0 64), .sendW (field payload 64 4)]) := by
  intro rest
  simp (disch := omega) only [extEntry, run_recvVarW_first, run_recvVarW_field, run_update_bind, run_packet,
    drop_length_append h]

theorem takes_textHotKey (h : payload.length = 133) :
    (textHotKey env).Takes payload t (some ()) t
      (written tunnelSock [.sendW [0x15], .sendW (field payload 0 64), .sendW (field payload 64 64),
        .sendW (field payload 128 4)]) := by
  intro rest
  simp (disch := omega) only [textHotKey, run_recvVarW_first, run_recvVarW_field, run_packet,
    drop_length_append h]

theorem takes_extAddEntity2 (h : payload.length = 137) :
    (extAddEntity2 env).Takes payload t (some ()) t
      (written tunnelSock [.send [0x21], .sendW (field payload 1 64), .sendW (field payload 65 64),
        .sendW (field payload 129 2), .sendW (field payload 131 2), .sendW (field payload 133 2),
        .send (field payload 135 1), .send (field payload 136 1)]) := by
  intro rest
  simp (disch := omega) only [extAddEntity2, run_recvVar_first, run_recvVar_field, run_recvVarW_field,
    run_packet, drop_length_append h]

theorem takes_twoWayPing (h : payload.length = 3) :
    (twoWayPing env).Takes payload t (some ()) t
      (written tunnelSock [.sendW [43], .sendW (field payload 0 1), .sendW (env.undef 2)]) := by
  intro rest
  simp (disch := omega) only [twoWayPing, run_recvVarW_first, run_recvVarW_field, run_packet,
    drop_length_append h]

end Server

end LavaTunnel
