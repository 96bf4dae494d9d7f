import LavaTunnel.Correctness.Dispatch
import LavaTunnel.Wire.Steady

/-!
# `LavaTunnel.Correctness.Segmentation` — the segments of the streams

Most fields are received by `recvW`, which waits for all of their bytes, or are single bytes. Four packets of
the server and five of the client have a longer field that is received by a plain `recv`: if a segment ends
inside it, the rest of the field is what was in the variable before, and the rest of the packet is read out of
place. Those are the packets that see the segments.
-/

namespace LavaTunnel

open Wire Wire.Prog

/-! ## A round over any transport -/

section Round

variable {α : Type} (env : Env) (gone : Code α) (dispatch : UInt8 → Code α) {id : UInt8} (t : Tunnel)

/-- The id is received whole from every transport. -/
theorem run_round {T : Type} [Transport T] [Delivers T] {i : T} {rest : Bytes}
    (hi : Delivers.bytes i = id :: rest) : ∃ i' : T, Delivers.bytes i' = rest ∧
      (do let r ← recvW 1
          if r.1 < 1 then gone else dispatch (byte (env.fill 1 r.2))).run i t = (dispatch id).run i' t := by
  obtain ⟨got, i', hgot, hrun, hi'⟩ := run_recvWLoop 1 1 [] i t (by simp)
  rw [hi] at hgot hi'
  obtain rfl : got = [id] := hgot
  refine ⟨i', hi', ?_⟩
  show (recvWLoop 1 1 [] >>= _).run i t = _
  rw [run_bind_of hrun]
  rfl

theorem takesAnywhere_round {payload : Bytes} {r : Option α} {t' : Tunnel} {out : List (Socket × Bytes)}
    (h : (dispatch id).TakesAnywhere payload t r t' out) :
    (do let r ← recvW 1
        if r.1 < 1 then gone else dispatch (byte (env.fill 1 r.2))).TakesAnywhere (id :: payload) t r t' out := by
  intro T _ _ i rest hi
  obtain ⟨i₁, hi₁, hround⟩ := run_round env gone dispatch t hi
  obtain ⟨i', hi', hrun⟩ := h T i₁ rest hi₁
  exact ⟨i', hi', hround.trans hrun⟩

/-- At the end of the stream the loop is left. -/
theorem endsAnywhere_round (hgone : gone.SegFree) {t' : Tunnel} {out : List (Socket × Bytes)}
    (h : gone.Takes [] t none t' out) :
    (do let r ← recvW 1
        if r.1 < 1 then gone else dispatch (byte (env.fill 1 r.2))).EndsAnywhere t := by
  refine ⟨t', out, fun T _ _ i hi => ?_⟩
  obtain ⟨got, i₁, hgot, hrun, hi₁⟩ := run_recvWLoop 1 1 [] i t (by simp)
  rw [hi] at hgot hi₁
  obtain rfl : got = [] := hgot
  rw [List.drop_nil, ← List.append_nil []] at hi₁
  obtain ⟨i', hi', hends⟩ := hgone.run_takes h hi₁
  refine ⟨i', hi', ?_⟩
  show (recvWLoop 1 1 [] >>= _).run i t = _
  rw [run_bind_of hrun]
  exact hends

end Round

/-! ## The handlers of `mcConnect` -/

namespace Client

/-- The packets of the server that see the segments. -/
def seesSegments : List UInt8 := [0x15, 0x19, 0x1A, 34]

variable (env : Env)

theorem segFree_serverMotd (l : McLocals) : (serverMotd env l).SegFree := by
  unfold serverMotd
  repeat refine SegFree.bind (segFree_recvVarW _ _) fun _ => ?_
  refine SegFree.bind (SegFree.recvCall le_rfl) fun _ => SegFree.bind SegFree.getState fun _ => ?_
  exact SegFree.bind (SegFree.packet _ _) fun _ => SegFree.bind (SegFree.update _) fun _ => SegFree.pure _

theorem segFree_levelInt : (levelInt env).SegFree :=
  SegFree.bind SegFree.getState fun _ =>
    SegFree.ite (segFree_relay env serverSock (by decide)) (segFree_relay env serverSock (by decide))

theorem segFree_levelData : (levelData env).SegFree := by
  unfold levelData
  refine SegFree.bind (segFree_recvVarW _ _) fun _ => SegFree.bind (SegFree.update _) fun _ => ?_
  refine SegFree.ite SegFree.exit (SegFree.bind (segFree_recvW _) fun _ => ?_)
  refine SegFree.bind (segFree_recvW _) fun _ => SegFree.bind (segFree_recvVarW _ _) fun _ => ?_
  exact SegFree.bind (SegFree.update _) fun _ => SegFree.packet _ _

theorem segFree_levelFinal (l : McLocals) : (levelFinal env l).SegFree := by
  refine SegFree.bind ?_ fun _ =>
    SegFree.bind (SegFree.onlyIf (SegFree.packet _ _)) fun _ => SegFree.pure _
  unfold levelFinalize
  repeat refine SegFree.bind (segFree_recvVarW _ _) fun _ => ?_
  refine SegFree.bind (SegFree.update _) fun _ => SegFree.bind (SegFree.packet _ _) fun _ => ?_
  exact SegFree.bind SegFree.getState fun _ => SegFree.ite SegFree.exit (SegFree.update _)

theorem segFree_setBlockPacket : (setBlockPacket env).SegFree := by
  unfold setBlockPacket
  repeat refine SegFree.bind (segFree_recvVarW _ _) fun _ => ?_
  exact SegFree.bind (SegFree.packet _ _) fun _ => SegFree.update _

theorem segFree_spawnPlayer : (spawnPlayer env).SegFree := by
  unfold spawnPlayer
  repeat refine SegFree.bind (segFree_recvVarW _ _) fun _ => ?_
  exact SegFree.bind (SegFree.update _) fun _ => SegFree.packet _ _

theorem segFree_follow (i : Int) : (follow i).SegFree := by
  have hlocal : (follow i).Local id IsPacket := local_follow i
  exact hlocal.segFree

theorem segFree_posAndOrientation : (posAndOrientation env).SegFree := by
  have hposition : ∀ width coord, (position env width coord).SegFree := by
    intro width coord
    unfold position
    repeat refine SegFree.bind (segFree_recvVarW _ _) fun _ => ?_
    exact SegFree.bind (SegFree.update _) fun _ => SegFree.bind (SegFree.packet _ _) fun _ => segFree_follow _
  exact SegFree.bind SegFree.getState fun _ => SegFree.ite (hposition _ _) (hposition _ _)

theorem segFree_posOffsetUpdate : (posOffsetUpdate env).SegFree := by
  unfold posOffsetUpdate
  repeat refine SegFree.bind (segFree_recvVarW _ _) fun _ => ?_
  exact SegFree.bind (SegFree.update _) fun _ => SegFree.bind (SegFree.packet _ _) fun _ => segFree_follow _

theorem segFree_posUpdate : (posUpdate env).SegFree := by
  unfold posUpdate
  repeat refine SegFree.bind (segFree_recvVarW _ _) fun _ => ?_
  exact SegFree.bind (SegFree.update _) fun _ => SegFree.bind (SegFree.packet _ _) fun _ => segFree_follow _

theorem segFree_orientationUpdate : (orientationUpdate env).SegFree := by
  unfold orientationUpdate
  repeat refine SegFree.bind (segFree_recvVarW _ _) fun _ => ?_
  exact SegFree.bind (SegFree.update _) fun _ => SegFree.packet _ _

theorem segFree_playerDisconnect : (playerDisconnect env).SegFree :=
  SegFree.bind (segFree_recvVarW _ _) fun _ => SegFree.bind (SegFree.packet _ _) fun _ => SegFree.update _

theorem segFree_kick : (kick env).SegFree :=
  SegFree.bind (segFree_recvVarW _ _) fun _ =>
    SegFree.bind (SegFree.update _) fun _ => SegFree.bind (SegFree.packet _ _) fun _ => SegFree.exit

theorem segFree_extInfo : (extInfo env).SegFree :=
  SegFree.bind (segFree_recvVarW _ _) fun _ =>
    SegFree.bind (segFree_recvVarW _ _) fun _ => SegFree.packet _ _

theorem segFree_extEntry : (extEntry env).SegFree :=
  SegFree.bind (segFree_recvVarW _ _) fun _ => SegFree.bind (segFree_recvVarW _ _) fun _ =>
    SegFree.bind (SegFree.update _) fun _ => SegFree.packet _ _

theorem segFree_holdThis : (holdThis env).SegFree :=
  SegFree.bind (segFree_recvVar _ le_rfl) fun _ =>
    SegFree.bind (segFree_recvVar _ le_rfl) fun _ => SegFree.pure _

theorem segFree_extAddEntity2 : (extAddEntity2 env).SegFree := by
  refine SegFree.bind SegFree.getState fun _ => SegFree.ite ?_ ?_
  · repeat refine SegFree.bind (segFree_recvVarW _ _) fun _ => ?_
    exact SegFree.update _
  · repeat refine SegFree.bind (segFree_recvVarW _ _) fun _ => ?_
    exact SegFree.bind (SegFree.packet _ _) fun _ => SegFree.update _

theorem segFree_extRemovePlayerName : (extRemovePlayerName env).SegFree :=
  SegFree.bind (segFree_recvVarW _ _) fun _ => SegFree.bind (SegFree.packet _ _) fun _ => SegFree.update _

theorem segFree_setBlockPermission : (setBlockPermission env).SegFree := by
  unfold setBlockPermission
  repeat refine SegFree.bind (segFree_recvVarW _ _) fun _ => ?_
  exact SegFree.bind SegFree.getState fun _ => SegFree.ite (SegFree.packet _ _) (SegFree.packet _ _)

theorem segFree_hackcontrol : (hackcontrol env).SegFree := by
  unfold hackcontrol
  repeat refine SegFree.bind (segFree_recvVarW _ _) fun _ => ?_
  exact SegFree.bind SegFree.getState fun _ => SegFree.ite (SegFree.packet _ _) (SegFree.packet _ _)

theorem segFree_entityProperty : (entityProperty env).SegFree := by
  unfold entityProperty
  repeat refine SegFree.bind (segFree_recvVarW _ _) fun _ => ?_
  exact SegFree.pure _

theorem segFree_disconnected : disconnected.SegFree :=
  SegFree.bind (SegFree.packet _ _) fun _ => SegFree.exit

/-- Every handler but those of the four packets. -/
theorem segFree_handler {e : UInt8 × Code Unit} (he : e ∈ handlers env) (hid : e.1 ∉ seesSegments) :
    e.2.SegFree := by
  rcases List.mem_append.mp he with he | he
  · obtain ⟨r, hr, rfl⟩ := List.mem_map.mp he
    have hsafe : ∀ r ∈ relays, r.id ∉ seesSegments → ∀ f ∈ r.layout, f.Safe := by decide
    exact segFree_relay env serverSock (hsafe r hr hid)
  · simp only [List.mem_cons, List.not_mem_nil, or_false] at he
    rcases he with rfl | rfl | rfl | rfl | rfl | rfl | rfl | rfl | rfl | rfl | rfl | rfl | rfl | rfl | rfl |
      rfl | rfl
    · exact segFree_levelInt env
    · exact segFree_levelData env
    · exact segFree_setBlockPacket env
    · exact segFree_spawnPlayer env
    · exact segFree_posAndOrientation env
    · exact segFree_posOffsetUpdate env
    · exact segFree_posUpdate env
    · exact segFree_orientationUpdate env
    · exact segFree_playerDisconnect env
    · exact segFree_extInfo env
    · exact segFree_extEntry env
    · exact segFree_holdThis env
    · exact segFree_extAddEntity2 env
    · exact segFree_extRemovePlayerName env
    · exact segFree_setBlockPermission env
    · exact segFree_hackcontrol env
    · exact segFree_entityProperty env

theorem segFree_dispatch {id : UInt8} (hid : id ∉ seesSegments) (l : McLocals) :
    (dispatch env id l).SegFree := by
  refine SegFree.ite (segFree_serverMotd env l) (SegFree.ite (segFree_levelFinal env l)
    (SegFree.ite (segFree_kick env) ?_))
  cases hc : (handlers env).lookup id with
  | none => exact SegFree.pure _
  | some c => exact SegFree.bind (segFree_handler env (mem_of_lookup hc) hid) fun _ => SegFree.pure _

end Client

/-! ## The handlers of `tunnelServer` -/

namespace Server

/-- The packets of the client that see the segments. -/
def seesSegments : List UInt8 := [0x16, 0x18, 0x19, 0x1A, 0x1E]

variable (env : Env)

theorem segFree_login : (login env).SegFree := by
  unfold login
  repeat refine SegFree.bind (segFree_recvVarW _ _) fun _ => ?_
  exact SegFree.bind (segFree_recvW _) fun _ => SegFree.bind (SegFree.update _) fun _ => SegFree.pure _

theorem segFree_setBlockClick : (setBlockClick env).SegFree := by
  unfold setBlockClick
  repeat refine SegFree.bind (segFree_recvVarW _ _) fun _ => ?_
  exact SegFree.bind SegFree.getState fun _ =>
    SegFree.ite (isCommand_point _ _ _ _).segFree (SegFree.packet _ _)

theorem segFree_posUpdate : (posUpdate env).SegFree := by
  unfold posUpdate
  repeat refine SegFree.bind (segFree_recvVarW _ _) fun _ => ?_
  exact SegFree.bind SegFree.getState fun _ =>
    SegFree.ite (SegFree.bind (SegFree.update _) fun _ => SegFree.packet _ _) (SegFree.update _)

theorem segFree_gimpMessage (what : UInt8) : (gimpMessage env what).SegFree := by
  refine SegFree.bind (isCommand_rand env).segFree fun r => SegFree.bind SegFree.getState fun t => ?_
  exact SegFree.ite SegFree.exit (isCommand_sendGimp _ _ _).segFree

theorem segFree_chatMessage : (chatMessage env).SegFree := by
  refine SegFree.bind (segFree_recvVarW _ _) fun _ => SegFree.bind (segFree_recvVarW _ _) fun message => ?_
  refine SegFree.ite (isCommand_chatCommand env _).segFree (SegFree.bind SegFree.getState fun _ => ?_)
  exact SegFree.ite (SegFree.onlyIf (segFree_gimpMessage env _)) (SegFree.packet _ _)

theorem segFree_extInfo : (extInfo env).SegFree :=
  SegFree.bind (segFree_recvVarW _ _) fun _ =>
    SegFree.bind (segFree_recvVarW _ _) fun _ => SegFree.packet _ _

theorem segFree_extEntry : (extEntry env).SegFree :=
  SegFree.bind (segFree_recvVarW _ _) fun _ => SegFree.bind (segFree_recvVarW _ _) fun _ =>
    SegFree.bind (SegFree.update _) fun _ => SegFree.packet _ _

theorem segFree_textHotKey : (textHotKey env).SegFree := by
  unfold textHotKey
  repeat refine SegFree.bind (segFree_recvVarW _ _) fun _ => ?_
  exact SegFree.packet _ _

theorem segFree_extAddEntity2 : (extAddEntity2 env).SegFree := by
  refine SegFree.bind (segFree_recvVar _ le_rfl) fun _ => ?_
  repeat refine SegFree.bind (segFree_recvVarW _ _) fun _ => ?_
  exact SegFree.bind (segFree_recvVar _ le_rfl) fun _ =>
    SegFree.bind (segFree_recvVar _ le_rfl) fun _ => SegFree.packet _ _

theorem segFree_twoWayPing : (twoWayPing env).SegFree :=
  SegFree.bind (segFree_recvVarW _ _) fun _ =>
    SegFree.bind (segFree_recvVarW _ _) fun _ => SegFree.packet _ _

/-- Every handler but those of the five packets. -/
theorem segFree_handler {e : UInt8 × Code Unit} (he : e ∈ handlers env) (hid : e.1 ∉ seesSegments) :
    e.2.SegFree := by
  rcases List.mem_append.mp he with he | he
  · obtain ⟨r, hr, rfl⟩ := List.mem_map.mp he
    have hsafe : ∀ r ∈ relays, r.id ∉ seesSegments → ∀ f ∈ r.layout, f.Safe := by decide
    exact segFree_relay env tunnelSock (hsafe r hr hid)
  · simp only [List.mem_cons, List.not_mem_nil, or_false] at he
    rcases he with rfl | rfl | rfl | rfl | rfl | rfl | rfl | rfl
    · exact segFree_setBlockClick env
    · exact segFree_posUpdate env
    · exact segFree_chatMessage env
    · exact segFree_extInfo env
    · exact segFree_extEntry env
    · exact segFree_textHotKey env
    · exact segFree_extAddEntity2 env
    · exact segFree_twoWayPing env

theorem segFree_dispatch {id : UInt8} (hid : id ∉ seesSegments) (l : ServerLocals) :
    (dispatch env id l).SegFree := by
  refine SegFree.ite (segFree_login env) ?_
  cases hc : (handlers env).lookup id with
  | none => exact SegFree.pure _
  | some c => exact SegFree.bind (segFree_handler env (mem_of_lookup hc) hid) fun _ => SegFree.pure _

end Server

end LavaTunnel
