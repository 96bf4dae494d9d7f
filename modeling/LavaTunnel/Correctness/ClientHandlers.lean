import LavaTunnel.Protocol

/-!
# `LavaTunnel.Correctness.ClientHandlers` — what each handler of `mcConnect` does

One lemma a handler: on any input that starts with a complete payload it takes just the payload, and this is
the state it leaves and this is what it writes. The relays have theirs in `LavaTunnel.Relay`.
-/

namespace LavaTunnel

open Wire Wire.Prog

namespace Client

variable (env : Env) {payload : Bytes} (t : Tunnel)

/-! ## Login and level -/

/-- The two texts of a MOTD, as they are sent on. -/
def motdText (t : Tunnel) (text : Bytes) : Bytes := if t.hax = 1 then toMCString t.haxType else strncpy64 text

theorem takes_serverMotd (l : McLocals) (h : payload.length = 130) :
    (serverMotd env l).Takes payload t
      (some { l with fucker := (field payload 129 1).headD l.fucker })
      { t with
        motd := strncpy64 (field payload 65 64)
        servername := strncpy64 (field payload 1 64) }
      (written serverSock [.sendW [0x00], .sendW [0x07], .sendW (motdText t (field payload 1 64)),
        .sendW (motdText t (field payload 65 64)),
        .send [(field payload 129 1).headD l.fucker]]) := by
  intro rest
  simp (disch := omega) only [serverMotd, motdText, run_recvVarW_first, run_recvVarW_field,
    run_recvCall_field, run_getState_bind, run_packet_bind, run_update_bind, run_pure,
    drop_length_append h, Outcome.after, List.append_nil, Option.getD_some]

theorem takes_levelInt (h : payload.length = if t.modes.fast then 4 else 0) :
    ∃ out, (levelInt env).Takes payload t (some ()) t out ∧ stream serverSock out = 0x02 :: payload := by
  cases hfast : t.negotiated CPE.fastMap with
  | true =>
      rw [show t.modes.fast = true from hfast] at h
      obtain ⟨out, htakes, hout⟩ := takes_relay env serverSock levelInitFast h t
      refine ⟨out, fun rest => ?_, hout⟩
      rw [levelInt, run_getState_bind, if_pos hfast]
      exact htakes rest
  | false =>
      rw [show t.modes.fast = false from hfast] at h
      obtain ⟨out, htakes, hout⟩ := takes_relay env serverSock levelInit h t
      refine ⟨out, fun rest => ?_, hout⟩
      rw [levelInt, run_getState_bind, if_neg (by simp [hfast])]
      exact htakes rest

/-- A piece of level data is stored behind the earlier ones and sent on with its filling. -/
theorem takes_levelData (h : LevelChunk payload) :
    ∃ out, (levelData env).Takes payload t (some ())
        { t with
          mapSize := int32 (t.mapSize + chunkLength payload)
          mapC := t.mapC ++ field payload 2 (chunkLength payload).toNat } out ∧
      stream serverSock out = 0x03 :: payload := by
  obtain ⟨hpos, hlen⟩ := h
  have hhost : (host (field payload 0 2)).toInt16.toInt = chunkLength payload := rfl
  obtain ⟨n, hn⟩ : ∃ n : Nat, chunkLength payload = n := Int.eq_ofNat_of_zero_le hpos
  -- behind a short piece the padding up to 1024 bytes is received as well
  by_cases hshort : n < 1024
  · have hlen' : payload.length = 2 + n + (1024 - n) + 1 := by omega
    have hrest : (1024 - (n : Int)).toNat = 1024 - n := by omega
    refine ⟨written serverSock [.sendW [0x03], .sendW (field payload 0 2), .sendW (field payload 2 n),
      .sendW (field payload (2 + n) (1024 - n)), .sendW (field payload (2 + n + (1024 - n)) 1)],
      fun rest => ?_, stream_fields [2, n, 1024 - n, 1] (by simp; omega) ?_⟩
    · simp (disch := omega) only [levelData, run_recvVarW_first, hhost, hn, if_neg, Int.toNat_natCast,
        run_recvW_field, hrest, run_recvVarW_field, run_update_bind, run_packet,
        drop_length_append hlen', fill_field, take_field, if_pos]
      rfl
    · simp [fieldsFrom]
  · have hlen' : payload.length = 2 + n + 0 + 1 := by omega
    have hrest : (1024 - (n : Int)).toNat = 0 := by omega
    refine ⟨written serverSock [.sendW [0x03], .sendW (field payload 0 2), .sendW (field payload 2 n),
      .sendW (field payload (2 + n + 0) 1)], fun rest => ?_, stream_fields [2, n, 1] (by simp; omega) ?_⟩
    · simp (disch := omega) only [levelData, run_recvVarW_first, hhost, hn, if_neg, Int.toNat_natCast,
        run_recvW_field, hrest, run_recvVarW_field, run_update_bind, run_packet,
        drop_length_append hlen', fill_field, take_field]
      rfl
    · simp [fieldsFrom]

/-- The state with the size of a new level. -/
def resized (payload : Bytes) (t : Tunnel) : Tunnel :=
  { t with lvlx := host (field payload 0 2), lvly := host (field payload 2 2), lvlz := host (field payload 4 2) }

/-- The code looks at three statuses of zlib, and ends the program on each. -/
def ZlibError (env : Env) (t : Tunnel) : Prop := return1 env t = -5 ∨ return1 env t = -4 ∨ return1 env t = -3

/-- zlib has freed the stream, so the end of the level is no error. -/
theorem not_zlibError (hz : env.zlib.EndDocumented) (t : Tunnel) : ¬ ZlibError env t := by
  unfold ZlibError return1
  rcases hz 31 t.mapC ((uncompressedsize t + 4) % 2 ^ 32) with h | h <;> omega

/-- The calls that announce the size of a level. -/
def levelFinalCalls (payload : Bytes) : List Call :=
  [.sendW [0x04], .sendW (field payload 0 2), .sendW (field payload 2 2), .sendW (field payload 4 2)]

theorem takes_levelFinal_error (l : McLocals) (h : payload.length = 6)
    (hz : ZlibError env (resized payload t)) :
    (levelFinal env l).Takes payload t none (resized payload t)
      (written serverSock (levelFinalCalls payload)) := by
  intro rest
  have hz' := hz
  unfold ZlibError resized at hz'
  simp (disch := omega) only [levelFinal, levelFinalize, bind_assoc', run_recvVarW_first,
    run_recvVarW_field, run_update_bind, run_packet_bind, run_getState_bind, drop_length_append h,
    hz', if_true, run_exit_bind, Outcome.after, List.append_nil]
  rfl

/-- The greeting of the tunnel, if it is due. -/
def greet (l : McLocals) : List Call :=
  if l.joined = false then [.send [0x0d], .send [0], .send (toMCString greeting)] else []

theorem takes_levelFinal (l : McLocals) (h : payload.length = 6)
    (hz : ¬ ZlibError env (resized payload t)) :
    (levelFinal env l).Takes payload t (some { l with joined := true }) (inflated env (resized payload t))
      (written serverSock (levelFinalCalls payload) ++ written serverSock (greet l)) := by
  intro rest
  have hz' := hz
  unfold ZlibError resized at hz'
  have hrun : (levelFinalize env).run (payload ++ rest) t =
      ⟨some (), rest, inflated env (resized payload t), written serverSock (levelFinalCalls payload)⟩ := by
    simp (disch := omega) only [levelFinalize, run_recvVarW_first, run_recvVarW_field, run_update_bind,
      run_packet_bind, run_getState_bind, drop_length_append h, hz', if_false, run_update, Outcome.after,
      List.append_nil]
    rfl
  rw [levelFinal, run_bind_of hrun]
  cases hj : l.joined with
  | true => simp [greet, hj, onlyIf, Outcome.after, written]
  | false => simp [greet, hj, onlyIf, tunnelMsg, Outcome.after]

theorem takes_setBlockPacket (h : payload.length = 7) :
    (setBlockPacket env).Takes payload t (some ())
      { t with map := Function.update t.map (calculateOffset t (host (field payload 0 2)).toInt16
          (host (field payload 2 2)).toInt16 (host (field payload 4 2)).toInt16) (byte (field payload 6 1)) }
      (written serverSock [.sendW [0x06], .sendW (field payload 0 2), .sendW (field payload 2 2),
        .sendW (field payload 4 2), .sendW (field payload 6 1)]) := by
  intro rest
  simp (disch := omega) only [setBlockPacket, run_recvVarW_first, run_recvVarW_field, run_packet_bind,
    run_update, drop_length_append h, Outcome.after, List.append_nil]

/-! ## Players -/

theorem local_follow {κ : Type} {kept : Tunnel → κ} (i : Int) : (follow i).Local kept IsPacket := by
  refine Local.getState_bind (fun t => Local.bind (Local.onlyIf ?_) (fun _ => Local.onlyIf ?_))
  · exact local_tunnelTeleport _ _ _ _ _
  · exact Local.bind (local_tunnelTeleport _ _ _ _ _) (fun _ => local_setBlock _ _ _ _ _)

/-- Following a player changes nothing, and writes nothing unless the player has mode 1 or 2. -/
theorem takes_follow (i : Int) :
    ∃ out, (follow i).Takes [] t (some ()) t out ∧
      ((t.player i).mode ≠ 1 → (t.player i).mode ≠ 2 → out = []) := by
  by_cases h : (t.player i).mode ≠ 1 ∧ (t.player i).mode ≠ 2
  · refine ⟨[], fun rest => ?_, fun _ _ => rfl⟩
    simp [follow, onlyIf_neg h.1, onlyIf_neg h.2]
  · have hlocal : (follow i).Local id IsPacket := local_follow i
    obtain ⟨_, t', out, htakes, hkept⟩ := hlocal.takes t
    obtain rfl : t' = t := hkept
    exact ⟨out, htakes, fun h1 h2 => absurd ⟨h1, h2⟩ h⟩

/-- The player of an id after it has been spawned. -/
def spawned (env : Env) (payload : Bytes) (t : Tunnel) : Tunnel :=
  t.setPlayer (byte (field payload 0 1)).toNat (fun p => entered env t { p with
    pid := byte (field payload 0 1)
    username := cleanString env p.username (field payload 1 64)
    x := host (field payload 65 2), y := host (field payload 67 2), z := host (field payload 69 2)
    yaw := byte (field payload 71 1), pitch := byte (field payload 72 1) })

theorem takes_spawnPlayer (h : payload.length = 73) :
    (spawnPlayer env).Takes payload t (some ()) (spawned env payload t)
      (written serverSock [.sendW [0x07], .sendW (field payload 0 1), .sendW (field payload 1 64),
        .sendW (field payload 65 2), .sendW (field payload 67 2), .sendW (field payload 69 2),
        .sendW (field payload 71 1), .sendW (field payload 72 1)]) := by
  intro rest
  simp (disch := omega) only [spawnPlayer, run_recvVarW_first, run_recvVarW_field, run_update_bind,
    run_packet, drop_length_append h, spawned]

/-- A handler that goes on to follow the player it has stored. -/
theorem takes_then_follow {c : Code Unit} {i : Int} {t' : Tunnel} {calls : List Call}
    (hc : ∀ rest, (c).run (payload ++ rest) t =
      ((follow i).run rest t').after (written serverSock calls)) :
    ∃ out, c.Takes payload t (some ()) t' (written serverSock calls ++ out) ∧
      ((t'.player i).mode ≠ 1 → (t'.player i).mode ≠ 2 → out = []) := by
  obtain ⟨out, hfollow, hquiet⟩ := takes_follow t' i
  refine ⟨out, fun rest => ?_, hquiet⟩
  rw [hc rest, show rest = [] ++ rest from rfl, hfollow rest]
  rfl

/-- The player of an id after a position has been stored. -/
def placed (payload : Bytes) (width : Nat) (coord : Bytes → UInt16) (t : Tunnel) : Tunnel :=
  t.setPlayer (byte (field payload 0 1)).toNat (fun p => { p with
    x := coord (field payload 1 width)
    y := coord (field payload (1 + width) width)
    z := coord (field payload (1 + width + width) width)
    yaw := byte (field payload (1 + width + width + width) 1)
    pitch := byte (field payload (1 + width + width + width + 1) 1) })

theorem takes_position (width : Nat) (coord : Bytes → UInt16)
    (h : payload.length = 1 + width + width + width + 1 + 1) :
    ∃ out, (position env width coord).Takes payload t (some ()) (placed payload width coord t)
        (written serverSock [.sendW [0x08], .sendW (field payload 0 1), .sendW (field payload 1 width),
          .sendW (field payload (1 + width) width), .sendW (field payload (1 + width + width) width),
          .sendW (field payload (1 + width + width + width) 1),
          .sendW (field payload (1 + width + width + width + 1) 1)] ++ out) ∧
      (((placed payload width coord t).player (byte (field payload 0 1)).toNat).mode ≠ 1 →
        ((placed payload width coord t).player (byte (field payload 0 1)).toNat).mode ≠ 2 → out = []) := by
  refine takes_then_follow t (fun rest => ?_)
  simp (disch := omega) only [position, run_recvVarW_first, run_recvVarW_field, run_update_bind,
    run_packet_bind, drop_length_append h, placed]

/-- The coordinates a position packet has in the mode of the state. -/
theorem takes_posAndOrientation (width : Nat) {coord : Bytes → UInt16}
    (hmode : (if t.negotiated CPE.extEntityPos then position env 4 (fun _ => ntohs 69)
      else position env 2 host) = position env width coord)
    (h : payload.length = 1 + width + width + width + 1 + 1) :
    ∃ out, (posAndOrientation env).Takes payload t (some ()) (placed payload width coord t)
        (written serverSock [.sendW [0x08], .sendW (field payload 0 1), .sendW (field payload 1 width),
          .sendW (field payload (1 + width) width), .sendW (field payload (1 + width + width) width),
          .sendW (field payload (1 + width + width + width) 1),
          .sendW (field payload (1 + width + width + width + 1) 1)] ++ out) ∧
      (((placed payload width coord t).player (byte (field payload 0 1)).toNat).mode ≠ 1 →
        ((placed payload width coord t).player (byte (field payload 0 1)).toNat).mode ≠ 2 → out = []) := by
  obtain ⟨out, htakes, hquiet⟩ := takes_position env t width coord h
  exact ⟨out, Takes.getState_bind (hmode ▸ htakes), hquiet⟩

/-- The player of an id after a step. -/
def stepped (payload : Bytes) (t : Tunnel) : Tunnel :=
  t.setPlayer (byte (field payload 0 1)).toNat (fun p => { p with
    x := moved p.x (field payload 1 1), y := moved p.y (field payload 2 1), z := moved p.z (field payload 3 1) })

/-- The player of an id after a turn. -/
def turned (payload : Bytes) (offset : Nat) (t : Tunnel) : Tunnel :=
  t.setPlayer (byte (field payload 0 1)).toNat (fun p => { p with
    yaw := byte (field payload offset 1), pitch := byte (field payload (offset + 1) 1) })

/-- What a change of a record leaves alone. -/
theorem kept_setPlayer {κ : Type} (kept : Player → κ) {f : Player → Player} (hf : ∀ p, kept (f p) = kept p)
    (t : Tunnel) (i j : Int) : kept ((t.setPlayer i f).player j) = kept (t.player j) := by
  unfold Tunnel.setPlayer
  by_cases h : j = i
  · subst h
    simp [hf]
  · simp [h]

theorem mode_placed (width : Nat) (coord : Bytes → UInt16) (j : Int) :
    ((placed payload width coord t).player j).mode = (t.player j).mode := by
  unfold placed
  exact kept_setPlayer Player.mode (fun p => by rfl) t _ j

theorem mode_stepped (j : Int) : ((stepped payload t).player j).mode = (t.player j).mode := by
  unfold stepped
  exact kept_setPlayer Player.mode (fun p => by rfl) t _ j

theorem mode_turned (offset : Nat) (j : Int) :
    ((turned payload offset t).player j).mode = (t.player j).mode := by
  unfold turned
  exact kept_setPlayer Player.mode (fun p => by rfl) t _ j

theorem takes_posOffsetUpdate (h : payload.length = 6) :
    ∃ out, (posOffsetUpdate env).Takes payload t (some ()) (turned payload 4 (stepped payload t))
        (written serverSock [.sendW [0x09], .sendW (field payload 0 1), .sendW (field payload 1 1),
          .sendW (field payload 2 1), .sendW (field payload 3 1), .sendW (field payload 4 1),
          .sendW (field payload 5 1)] ++ out) ∧
      (((turned payload 4 (stepped payload t)).player (byte (field payload 0 1)).toNat).mode ≠ 1 →
        ((turned payload 4 (stepped payload t)).player (byte (field payload 0 1)).toNat).mode ≠ 2 →
        out = []) := by
  refine takes_then_follow t (fun rest => ?_)
  simp (disch := omega) only [posOffsetUpdate, run_recvVarW_first, run_recvVarW_field, run_update_bind,
    run_packet_bind, drop_length_append h]
  simp [turned, stepped, Tunnel.setPlayer]

theorem takes_posUpdate (h : payload.length = 4) :
    ∃ out, (posUpdate env).Takes payload t (some ()) (stepped payload t)
        (written serverSock [.sendW [0x0a], .sendW (field payload 0 1), .sendW (field payload 1 1),
          .sendW (field payload 2 1), .sendW (field payload 3 1)] ++ out) ∧
      (((stepped payload t).player (byte (field payload 0 1)).toNat).mode ≠ 1 →
        ((stepped payload t).player (byte (field payload 0 1)).toNat).mode ≠ 2 → out = []) := by
  refine takes_then_follow t (fun rest => ?_)
  simp (disch := omega) only [posUpdate, run_recvVarW_first, run_recvVarW_field, run_update_bind,
    run_packet_bind, drop_length_append h, stepped]

theorem takes_orientationUpdate (h : payload.length = 3) :
    (orientationUpdate env).Takes payload t (some ()) (turned payload 1 t)
      (written serverSock [.sendW [0x0b], .sendW (field payload 0 1), .sendW (field payload 1 1),
        .sendW (field payload 2 1)]) := by
  intro rest
  simp (disch := omega) only [orientationUpdate, run_recvVarW_first, run_recvVarW_field, run_update_bind,
    run_packet, drop_length_append h, turned]

theorem takes_playerDisconnect (h : payload.length = 1) :
    (playerDisconnect env).Takes payload t (some ())
      (t.setPlayer (byte (field payload 0 1)).toNat (fun p => { p with valid := false, mode := 0 }))
      (written serverSock [.sendW [0x0c], .sendW (field payload 0 1)]) := by
  intro rest
  simp (disch := omega) only [playerDisconnect, run_recvVarW_first, run_packet_bind, run_update,
    drop_length_append h, Outcome.after, List.append_nil]

theorem takes_kick (h : payload.length = 64) :
    (kick env).Takes payload t none { t with cuboid := { t.cuboid with halt := true } }
      (written serverSock [.sendW [0x0e], .sendW (field payload 0 64)]) := by
  intro rest
  simp (disch := omega) only [kick, run_recvVarW_first, run_update_bind, run_packet_bind, run_exit,
    drop_length_append h, Outcome.after, List.append_nil]

/-! ## CPE -/

theorem takes_extInfo (h : payload.length = 66) :
    (extInfo env).Takes payload t (some ()) t
      (written serverSock [.sendW [0x10], .sendW (field payload 0 64),
        .sendW (bytesOf (htons (host (field payload 64 2))))]) := by
  intro rest
  simp (disch := omega) only [extInfo, run_recvVarW_first, run_recvVarW_field, run_packet,
    drop_length_append h]

theorem takes_extEntry (h : payload.length = 68) :
    (extEntry env).Takes payload t (some ())
      { t with cpeClient := announce env (field payload 0 64) t.cpeClient }
      (written serverSock [.sendW [0x11], .sendW (field payload 0 64), .sendW (field payload 64 4)]) := by
  intro rest
  simp (disch := omega) only [extEntry, run_recvVarW_first, run_recvVarW_field, run_update_bind, run_packet,
    drop_length_append h]

theorem takes_holdThis (h : payload.length = 2) : (holdThis env).Takes payload t (some ()) t [] := by
  intro rest
  simp (disch := omega) only [holdThis, run_recvVar_first, run_recvVar_field, run_pure,
    drop_length_append h]

theorem takes_extAddEntity2_wide (hw : t.negotiated CPE.extEntityPos = true) (h : payload.length = 143) :
    (extAddEntity2 env).Takes payload t (some ())
      (addEntity env (field payload 0 1) (field payload 65 64) (field payload 141 1) (field payload 142 1) t)
      [] := by
  intro rest
  simp (disch := omega) only [extAddEntity2, run_getState_bind, hw, if_true, run_recvVarW_first,
    run_recvVarW_field, run_update, drop_length_append h]

theorem takes_extAddEntity2 (hw : t.negotiated CPE.extEntityPos = false) (h : payload.length = 137) :
    (extAddEntity2 env).Takes payload t (some ())
      (addEntity env (field payload 0 1) (field payload 65 64) (field payload 135 1) (field payload 136 1) t)
      (written serverSock [.sendW [0x21], .sendW (field payload 0 1), .sendW (field payload 1 64),
        .sendW (field payload 65 64), .sendW (field payload 129 2), .sendW (field payload 131 2),
        .sendW (field payload 133 2), .sendW (field payload 135 1), .sendW (field payload 136 1)]) := by
  intro rest
  rw [extAddEntity2, run_getState_bind, if_neg (by simp [hw])]
  simp (disch := omega) only [run_recvVarW_first, run_recvVarW_field, run_packet_bind, run_update,
    drop_length_append h, Outcome.after, List.append_nil]

theorem takes_extRemovePlayerName (h : payload.length = 2) :
    (extRemovePlayerName env).Takes payload t (some ())
      (t.setPlayer (byte (field payload 0 2)).toInt8.toInt (fun p => { p with valid := false }))
      (written serverSock [.send [0x18], .send (field payload 0 2)]) := by
  intro rest
  simp (disch := omega) only [extRemovePlayerName, run_recvVarW_first, run_packet_bind, run_update,
    drop_length_append h, Outcome.after, List.append_nil]

/-- The permissions, as they are sent on. -/
def permissionCalls (t : Tunnel) (payload : Bytes) : List Call :=
  if t.hax = 1 then [.sendW [0x1C], .sendW (field payload 0 1), .sendW [1], .sendW [1]]
  else [.sendW [0x1C], .sendW (field payload 0 1), .sendW (field payload 1 1), .sendW (field payload 2 1)]

theorem takes_setBlockPermission (h : payload.length = 3) :
    (setBlockPermission env).Takes payload t (some ()) t
      (written serverSock (permissionCalls t payload)) := by
  intro rest
  simp (disch := omega) only [setBlockPermission, run_recvVarW_first, run_recvVarW_field,
    run_getState_bind, drop_length_append h, permissionCalls]
  split <;> rw [run_packet]

/-- The hack control, as it is sent on. -/
def hackCalls (t : Tunnel) (payload : Bytes) : List Call :=
  if t.hax = 1 then
    [.sendW [0x20], .sendW [255], .sendW [1], .sendW [255], .sendW [255], .sendW [1],
      .sendW [255, 1]]
  else
    [.sendW [0x20], .sendW (field payload 0 1), .sendW (field payload 1 1), .sendW (field payload 2 1),
      .sendW (field payload 3 1), .sendW (field payload 4 1), .sendW (field payload 5 2)]

theorem takes_hackcontrol (h : payload.length = 7) :
    (hackcontrol env).Takes payload t (some ()) t (written serverSock (hackCalls t payload)) := by
  intro rest
  simp (disch := omega) only [hackcontrol, run_recvVarW_first, run_recvVarW_field, run_getState_bind,
    drop_length_append h, hackCalls]
  split <;> rw [run_packet]

theorem takes_entityProperty (h : payload.length = 7) :
    (entityProperty env).Takes payload t (some ()) t [] := by
  intro rest
  simp (disch := omega) only [entityProperty, run_recvVarW_first, run_recvVarW_field, run_pure,
    drop_length_append h]

end Client

end LavaTunnel
