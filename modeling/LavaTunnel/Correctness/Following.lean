import LavaTunnel.Correctness.Players
import LavaTunnel.Correctness.Position

/-!
# `LavaTunnel.Correctness.Following` — the camera on a followed player

A player in mode 1 is followed: after a packet about the player the client is taken to where the player is and
looks. Three of the five handlers that change the record do so. A spawn and a turn do not, so that after them the
client looks from where the player was, unless it was taken there already.
-/

namespace LavaTunnel

open Wire Wire.Prog

/-- The teleport of the client to a place and a direction. -/
def teleportOf (w : UInt16 × UInt16 × UInt16 × UInt8 × UInt8) : Bytes :=
  0x08 :: 255 :: (bytesOf (htons w.1) ++ bytesOf (htons w.2.1) ++ bytesOf (htons w.2.2.1) ++
    [w.2.2.2.1, w.2.2.2.2])

/-- A packet that is a teleport of the client. -/
def IsTeleport (p : Bytes) : Prop := p.take 2 = [0x08, 255]

instance (p : Bytes) : Decidable (IsTeleport p) := inferInstanceAs (Decidable (_ = _))

/-- The last teleport among what has been sent to the client. -/
def lastTeleport (sent : List (Socket × Bytes)) : Option Bytes :=
  ((sentTo serverSock sent).filter (fun p => IsTeleport p)).getLast?

/-- The last teleport took the client to where the player is and looks. -/
def Mirrored (c : Turns ThreadId Tunnel Socket Locals) (p : UInt8) : Prop :=
  lastTeleport c.sent = some (teleportOf (c.state.player p.toNat).whereabouts)

namespace Client

/-- The packets that set or change where a player is or looks. -/
def movingIds : List UInt8 := [0x07, 0x08, 0x09, 0x0a, 0x0b]

/-- Those after which a player is followed. -/
def followingIds : List UInt8 := [0x08, 0x09, 0x0a]

/-- Where a player is and looks after a packet, from where it was before. -/
def whereaboutsTold (p : UInt8) (was : Player) (q : Packet) : UInt16 × UInt16 × UInt16 × UInt8 × UInt8 :=
  (tracked p .x was.x q, tracked p .y was.y q, tracked p .z was.z q, faced p (was.yaw, was.pitch) q)

/-- The turn is one of `mcConnect` in its loop, and what arrives is a complete packet, in the mode with two bytes a
    coordinate. -/
structure Handles (c : Turns ThreadId Tunnel Socket Locals) (turn : ThreadId × Bytes) (q : Packet) : Prop where
  arrives : turn = (.mcConnect, q.1 :: q.2)
  looping : ∃ l, c.locals .mcConnect = .mcConnect l
  goes : c.ended = false
  loggedIn : c.state.loggedIn = true
  complete : FromServer c.state.modes q
  narrow : c.state.modes.wide = false

/-- What the packet needs so that the client is where the followed player is: its handler follows the player, or
    the client has been taken there already. -/
def KeepsUp (c : Turns ThreadId Tunnel Socket Locals) (p : UInt8) (q : Packet) : Prop :=
  q.1 ∈ followingIds ∨ lastTeleport c.sent = some (teleportOf (whereaboutsTold p (c.state.player p.toNat) q))

/-! ## What a handler sends -/

section Sent

variable {env : Env} {payload : Bytes} {t : Tunnel}

theorem lastTeleport_append (sent sent' : List (Socket × Bytes)) :
    lastTeleport (sent ++ sent') = (lastTeleport sent').or (lastTeleport sent) :=
  getLast?_sentTo_append serverSock (fun p => IsTeleport p) sent sent'

/-- A teleport is the last one, whatever was sent before it. -/
theorem lastTeleport_teleport (bs : Bytes) (w : UInt16 × UInt16 × UInt16 × UInt8 × UInt8) :
    lastTeleport [(serverSock, bs), (serverSock, teleportOf w)] = some (teleportOf w) :=
  lastTeleport_append [(serverSock, bs)] [(serverSock, teleportOf w)]

/-- Another packet is no teleport. -/
theorem lastTeleport_other {id : UInt8} (h : id ≠ 0x08) (bs : Bytes) :
    lastTeleport [(serverSock, id :: bs)] = none := by
  have hnot : ¬ IsTeleport (id :: bs) := fun htake => h (List.cons.inj htake).1
  unfold lastTeleport
  rw [List.getLast?_eq_none_iff, List.filter_eq_nil_iff]
  intro p hp
  obtain rfl := List.mem_singleton.mp hp
  simpa using hnot

/-- A player in mode 1 is followed. -/
theorem sent_follow {i : Int} (h : (t.player i).mode = 1) (input : Bytes) :
    (follow i).sent input t = [(serverSock, teleportOf (t.player i).whereabouts)] := by
  have htwo : ¬ (t.player i).mode = 2 := by omega
  unfold follow
  rw [sent_getState_bind]
  dsimp only
  rw [onlyIf_pos h, onlyIf_neg htwo]
  rfl

theorem sent_position (h : payload.length = 9) : ∃ bs input : Bytes, (position env 2 host).sent payload t =
    (serverSock, bs) :: (follow (byte (field payload 0 1)).toNat).sent input (placed payload 2 host t) := by
  unfold position
  simp (disch := omega) only [sent_recvVarW_first, sent_recvVarW_field, sent_update_bind, sent_packet_bind]
  exact ⟨_, _, rfl⟩

theorem sent_posOffsetUpdate (h : payload.length = 6) : ∃ bs input : Bytes, (posOffsetUpdate env).sent payload t =
    (serverSock, bs) ::
      (follow (byte (field payload 0 1)).toNat).sent input (turned payload 4 (stepped payload t)) := by
  unfold posOffsetUpdate
  simp (disch := omega) only [sent_recvVarW_first, sent_recvVarW_field, sent_update_bind, sent_packet_bind]
  unfold turned stepped
  rw [setPlayer_setPlayer]
  exact ⟨_, _, rfl⟩

theorem sent_posUpdate (h : payload.length = 4) : ∃ bs input : Bytes, (posUpdate env).sent payload t =
    (serverSock, bs) :: (follow (byte (field payload 0 1)).toNat).sent input (stepped payload t) := by
  unfold posUpdate
  simp (disch := omega) only [sent_recvVarW_first, sent_recvVarW_field, sent_update_bind, sent_packet_bind]
  exact ⟨_, _, rfl⟩

theorem sent_spawnPlayer (env : Env) (t : Tunnel) (h : payload.length = 73) :
    ∃ bs, (spawnPlayer env).sent payload t = [(serverSock, 0x07 :: bs)] := by
  unfold spawnPlayer
  simp (disch := omega) only [sent_recvVarW_first, sent_recvVarW_field, sent_update_bind]
  exact ⟨_, rfl⟩

theorem sent_orientationUpdate (env : Env) (t : Tunnel) (h : payload.length = 3) :
    ∃ bs, (orientationUpdate env).sent payload t = [(serverSock, 0x0b :: bs)] := by
  unfold orientationUpdate
  simp (disch := omega) only [sent_recvVarW_first, sent_recvVarW_field, sent_update_bind]
  exact ⟨_, rfl⟩

/-- A handler that sends the packet, and then follows the player. -/
theorem sent_then_follow {id : UInt8} {h : Code Unit} (hmem : (id, h) ∈ handlers env) {t' : Tunnel}
    (hreceived : received env (id, payload) t = t')
    (hsent : ∃ bs input : Bytes, h.sent payload t =
      (serverSock, bs) :: (follow (pidOf (id, payload)).toNat).sent input t')
    (hmode : (t'.player (pidOf (id, payload)).toNat).mode = 1) (l : McLocals) :
    ∃ bs : Bytes, (mcConnect env l).sent (id :: payload) t = [(serverSock, bs),
      (serverSock, teleportOf ((received env (id, payload) t).player (pidOf (id, payload)).toNat).whereabouts)] := by
  obtain ⟨bs, input, hsent⟩ := hsent
  refine ⟨bs, ?_⟩
  rw [sent_mcConnect hmem, hsent, sent_follow hmode, hreceived]

/-- **What the five handlers send** about a player in mode 1: the packet, and three of them then a teleport to where
    they leave the player. -/
theorem sent_moving (env : Env) {q : Packet} (hfrom : FromServer t.modes q) (hnarrow : t.modes.wide = false)
    (hid : q.1 ∈ movingIds) (hmode : (t.player (pidOf q).toNat).mode = 1) (l : McLocals) :
    (q.1 ∈ followingIds ∧ ∃ bs : Bytes, (mcConnect env l).sent (q.1 :: q.2) t = [(serverSock, bs),
        (serverSock, teleportOf ((received env q t).player (pidOf q).toNat).whereabouts)]) ∨
      q.1 ∉ followingIds ∧ ∃ bs : Bytes, (mcConnect env l).sent (q.1 :: q.2) t = [(serverSock, q.1 :: bs)] := by
  obtain ⟨id, payload⟩ := q
  simp only [movingIds, List.mem_cons, List.not_mem_nil, or_false] at hid
  -- one case an id, in the order of `movingIds`
  rcases hid with rfl | rfl | rfl | rfl | rfl
  · have h73 : payload.length = 73 := by simpa [FromServer, serverPackets] using hfrom
    obtain ⟨bs, hsent⟩ := sent_spawnPlayer env t h73
    exact Or.inr ⟨by simp [followingIds], bs, (sent_mcConnect (own_mem (by repeat constructor)) l _ t).trans hsent⟩
  · have h9 : payload.length = 9 := by simpa [FromServer, serverPackets, hnarrow] using hfrom
    have hposition : posAndOrientation env = getState >>= fun t =>
        if t.negotiated CPE.extEntityPos then position env 4 (fun _ => ntohs 69) else position env 2 host := rfl
    have hreceived : received env (0x08, payload) t = placed payload 2 host t := by
      show positioned payload t = _
      unfold positioned
      rw [hnarrow]
      rfl
    refine Or.inl ⟨by simp [followingIds], sent_then_follow (own_mem (e := (0x08, posAndOrientation env))
      (by repeat constructor)) hreceived ?_ ((mode_placed t 2 host _).trans hmode) l⟩
    rw [hposition, sent_getState_bind, if_neg (show ¬ t.negotiated CPE.extEntityPos = true from
      Bool.eq_false_iff.mp hnarrow)]
    exact sent_position h9
  · have h6 : payload.length = 6 := by simpa [FromServer, serverPackets] using hfrom
    have hreceived : received env (0x09, payload) t = turned payload 4 (stepped payload t) := rfl
    exact Or.inl ⟨by simp [followingIds], sent_then_follow (own_mem (by repeat constructor)) hreceived
      (sent_posOffsetUpdate h6) (((mode_turned _ 4 _).trans (mode_stepped t _)).trans hmode) l⟩
  · have h4 : payload.length = 4 := by simpa [FromServer, serverPackets] using hfrom
    have hreceived : received env (0x0a, payload) t = stepped payload t := rfl
    exact Or.inl ⟨by simp [followingIds], sent_then_follow (own_mem (by repeat constructor)) hreceived
      (sent_posUpdate h4) ((mode_stepped t _).trans hmode) l⟩
  · have h3 : payload.length = 3 := by simpa [FromServer, serverPackets] using hfrom
    obtain ⟨bs, hsent⟩ := sent_orientationUpdate env t h3
    exact Or.inr ⟨by simp [followingIds], bs, (sent_mcConnect (own_mem (by repeat constructor)) l _ t).trans hsent⟩

end Sent

/-! ## A turn -/

section Turn

variable {env : Env} {c : Turns ThreadId Tunnel Socket Locals} {turn : ThreadId × Bytes} {q : Packet}

/-- A turn that handles a packet does what the packet does, and sends what its round sends. -/
theorem Handles.does (env : Env) (h : Handles c turn q) (hid : q.1 ≠ 0x04) :
    ((tunnel env).turn c turn.1 turn.2).state = received env q c.state ∧
      ∃ l, ((tunnel env).turn c turn.1 turn.2).sent = c.sent ++ (mcConnect env l).sent (q.1 :: q.2) c.state := by
  obtain ⟨l, hl⟩ := h.looping
  obtain ⟨r, out, htakes, -⟩ := receives env c.state l (fun h4 => absurd h4 hid) h.complete
  have hrun := takes_mcConnect (p := q) htakes []
  rw [List.append_nil] at hrun
  rw [h.arrives]
  have hbody : (tunnel env).body .mcConnect (c.locals .mcConnect) =
      (do let l' ← mcConnect env l; pure (Locals.mcConnect l')) := by
    rw [hl]
    rfl
  have hturn : c.ended = false ∧ (tunnel env).started .mcConnect c.state = true := ⟨h.goes, h.loggedIn⟩
  obtain ⟨hstate, hsent⟩ := turn_does (q.1 :: q.2) hturn
  rw [hbody, run_bind_pure, hrun] at hstate
  rw [hbody, sent_bind_pure] at hsent
  exact ⟨hstate, l, hsent⟩

/-- What the packet makes of where the player is and looks. -/
theorem whereabouts_told (hid : q.1 ∈ movingIds) {t : Tunnel} (hfrom : FromServer t.modes q)
    (hnarrow : t.modes.wide = false) (p : UInt8) :
    ((received env q t).player p.toNat).whereabouts = whereaboutsTold p (t.player p.toNat) q := by
  have hplain : Plain q := by
    refine ⟨fun h => absurd (h ▸ hid) (by decide), fun h8 => ?_⟩
    obtain ⟨id, payload⟩ := q
    obtain rfl : id = 0x08 := h8
    simpa [FromServer, serverPackets, hnarrow] using hfrom
  have hcoord : ∀ a, ((received env q t).player p.toNat).coord a = tracked p a ((t.player p.toNat).coord a) q :=
    fun a => (tracked_received hplain hfrom p a).1
  have hface : (((received env q t).player p.toNat).yaw, ((received env q t).player p.toNat).pitch) =
      faced p ((t.player p.toNat).yaw, (t.player p.toNat).pitch) q := (tracked_received hplain hfrom p .x).2
  unfold whereaboutsTold
  rw [← hface]
  exact congr (congrArg _ (hcoord .x)) (congr (congrArg _ (hcoord .y)) (congrArg (·, _) (hcoord .z)))

/-- **One packet** about a player in mode 1. -/
theorem mirrored_turn_iff (h : Handles c turn q) (hid : q.1 ∈ movingIds)
    (hmode : (c.state.player (pidOf q).toNat).mode = 1) :
    Mirrored ((tunnel env).turn c turn.1 turn.2) (pidOf q) ↔ KeepsUp c (pidOf q) q := by
  obtain ⟨hstate, l, hsent⟩ := h.does env (fun h4 => absurd (h4 ▸ hid) (by decide))
  unfold Mirrored KeepsUp
  rw [hstate, hsent, lastTeleport_append]
  rcases sent_moving env h.complete h.narrow hid hmode l with ⟨hfollow, bs, hbs⟩ | ⟨hnot, bs, hbs⟩
  · -- the teleport comes last
    refine iff_of_true ?_ (Or.inl hfollow)
    rw [hbs, lastTeleport_teleport, Option.some_or]
  · -- no teleport: the last one is an earlier one
    have hother : q.1 ≠ 0x08 := fun h8 => hnot (h8 ▸ by decide)
    rw [hbs, lastTeleport_other hother, Option.none_or, whereabouts_told hid h.complete h.narrow]
    exact ⟨Or.inr, fun hup => hup.resolve_left hnot⟩

end Turn

end Client

/-- **Following mirrors the player.** In a run of all four threads, after a packet about a player in mode 1 the last
    teleport carries the coordinates, the yaw and the pitch of the record just if the packet is a position update,
    or the teleport before it carried already what the packet makes of them. -/
theorem following_mirrors_iff (env : Env) (t : Tunnel) (sched : List (ThreadId × Bytes)) (k : Nat)
    (hk : k < sched.length) (p : UInt8) (q : Packet)
    (h : Client.Handles ((tunnel env).turns (beginning t) (sched.take k)) sched[k] q)
    (hid : q.1 ∈ Client.movingIds) (hp : Client.pidOf q = p)
    (hmode : (((tunnel env).turns (beginning t) (sched.take k)).state.player p.toNat).mode = 1) :
    Mirrored ((tunnel env).turns (beginning t) (sched.take (k + 1))) p ↔
      Client.KeepsUp ((tunnel env).turns (beginning t) (sched.take k)) p q := by
  subst hp
  rw [turns_take_succ (tunnel env) (beginning t) hk]
  exact Client.mirrored_turn_iff h hid hmode

/-- Player 5 is followed. -/
def followsFive : Tunnel :=
  { loggedIn := true, player := fun i => if i = 5 then { valid := true, mode := 1 } else {} }

/-- `mcConnect` logs in; the player takes a step, and then turns. -/
def stepAndTurn : List (ThreadId × Bytes) :=
  [(.mcConnect, []), (.mcConnect, [0x0a, 5, 1, 1, 1]), (.mcConnect, [0x0b, 5, 9, 8])]

/-- After the step. -/
theorem following_mirrors_step :
    Mirrored ((tunnel {}).turns (beginning followsFive) (stepAndTurn.take 2)) 5 ↔
      Client.KeepsUp ((tunnel {}).turns (beginning followsFive) (stepAndTurn.take 1)) 5 (0x0a, [5, 1, 1, 1]) :=
  following_mirrors_iff {} followsFive stepAndTurn 1 (by decide) 5 (0x0a, [5, 1, 1, 1])
    ⟨rfl, ⟨{}, rfl⟩, rfl, rfl, by decide +kernel, by decide +kernel⟩ (by decide) (by decide) (by decide +kernel)

/-- After the turn the client looks where the player looked before. -/
theorem turn_not_mirrored :
    ¬ ∀ (env : Env) (t : Tunnel) (sched : List (ThreadId × Bytes)) (k : Nat) (hk : k < sched.length) (p : UInt8)
      (q : Packet), Client.Handles ((tunnel env).turns (beginning t) (sched.take k)) sched[k] q →
        q.1 ∈ Client.movingIds → Client.pidOf q = p →
        (∀ j, (((tunnel env).turns (beginning t) (sched.take k)).state.player j).mode = 1 ↔ j = p.toNat) →
        Mirrored ((tunnel env).turns (beginning t) (sched.take (k + 1))) p := by
  intro hall
  -- the login and the step change nobody's mode
  have honly : ∀ j, (((tunnel {}).turns (beginning followsFive) (stepAndTurn.take 2)).state.player j).mode = 1 ↔
      j = (5 : UInt8).toNat := by
    intro j
    have hstart : (((tunnel {}).turns (beginning followsFive) (stepAndTurn.take 2)).state.player j).mode =
        (followsFive.player j).mode := @Client.mode_stepped [5, 1, 1, 1] _ j
    rw [hstart]
    show (if j = 5 then ({ valid := true, mode := 1 } : Player) else {}).mode = 1 ↔ j = 5
    split
    · next hj => exact iff_of_true rfl hj
    · next hj => exact iff_of_false (by decide) hj
  have hmirrored := hall {} followsFive stepAndTurn 2 (by decide) 5 (0x0b, [5, 9, 8])
    ⟨rfl, ⟨{}, rfl⟩, by decide +kernel, by decide +kernel, by decide +kernel, by decide +kernel⟩ (by decide)
    (by decide) honly
  have hlast : lastTeleport ((tunnel {}).turns (beginning followsFive) (stepAndTurn.take 3)).sent =
      some [0x08, 255, 0, 1, 0, 1, 0, 1, 0, 0] := by
    decide +kernel
  have hrecord : teleportOf
      (((tunnel {}).turns (beginning followsFive) (stepAndTurn.take 3)).state.player 5).whereabouts =
        [0x08, 255, 0, 1, 0, 1, 0, 1, 9, 8] := by
    decide +kernel
  have hsame := Option.some.inj (hlast.symm.trans hmirrored)
  exact absurd (hsame.trans hrecord) (by decide)

end LavaTunnel
