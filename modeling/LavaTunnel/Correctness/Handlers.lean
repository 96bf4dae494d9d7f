import LavaTunnel.Correctness.Commands
import LavaTunnel.Correctness.Nest
import LavaTunnel.Main
import LavaTunnel.Protocol

/-!
# `LavaTunnel.Correctness.Handlers` — what every round writes, keeps and depends on

One pass over the code of the four threads. Whatever a round receives and reads, it writes whole packets, and
nothing it does depends on the fields that `Tunnel.read` clears. Four things move the user: the position
packets of the client, which also say so in `user`, and the blocks placed by `ptp`, by a plotmotion and by the
builder, which do not. Everything else leaves `user` alone and sends no position to the server: `Calmly`. The
hacks stay as they were configured.
-/

namespace LavaTunnel

open Wire Wire.Prog

/-- The code leaves the user where he is. -/
abbrev Calmly {α : Type} (c : Code α) : Prop := c.Tame Tunnel.settled Tunnel.read Calm

/-- The code writes whole packets, and leaves `user` and the hacks alone. -/
abbrev Wholly {α : Type} (c : Code α) : Prop := c.Tame Tunnel.settled Tunnel.read IsPacket

/-- The code writes whole packets. -/
abbrev Writes {α : Type} (c : Code α) : Prop := c.Tame (fun _ => ()) Tunnel.read IsPacket

theorem Calmly.wholly {α : Type} {c : Code α} (h : Calmly c) : Wholly c := h.mono id (fun _ _ hbs => hbs.1)

theorem Wholly.writes {α : Type} {c : Code α} (h : Wholly c) : Writes c := h.mono (fun _ => ()) (fun _ _ => id)

theorem told_tunnelMsg (msg : Bytes) : Spoken Told (tunnelMsg msg) :=
  (heard_tunnelMsg msg).mono id (fun _ _ => Heard.told)

theorem Spoken.calmly {α : Type} {c : Code α} (h : Spoken Told c) : Calmly c :=
  h.tame.mono (fun k => k.2.1) (fun _ _ => Told.calm)

theorem Spoken.wholly {α : Type} {P : Socket → Bytes → Prop} {c : Code α} (h : Spoken P c)
    (hP : ∀ s bs, P s bs → IsPacket s bs) : Wholly c := h.tame.mono (fun k => k.2.1) hP

/-! ## The handlers of `mcConnect` -/

namespace Client

variable (env : Env)

/-- A relay does not move the user, unless it is for the position. -/
theorem calmly_relay {dest : Socket} {r : Relay} (hmem : (r.id, r.width) ∈ sentPackets dest) (hid : r.id ≠ 0x08) :
    Calmly (relay env dest r) :=
  tame_relay env (fun _ h => calm_of_length h hmem hid)

theorem calmly_serverMotd (l : McLocals) : Calmly (serverMotd env l) := by
  unfold serverMotd
  refine tame_recvVarW _ fun _ _ => tame_recvVarW _ fun cservername hname =>
    tame_recvVarW _ fun cmotd hmotd => ?_
  refine Tame.bind (Tame.recvCall 1) fun r => Tame.getState_bind (fun _ => rfl) fun t => ?_
  have hlen : ∀ v : Bytes, (if t.hax = 1 then toMCString t.haxType else strncpy64 v).length = 64 := by
    intro v
    split
    · exact length_toMCString _
    · unfold strncpy64
      simp only [List.length_append, List.length_replicate, List.length_take]
      omega
  refine Tame.bind (Tame.packet ?_) fun _ => Tame.bind (Tame.update (fun _ => rfl) (fun _ => rfl)) fun _ =>
    Tame.pure _
  exact calm_of_length (n := 130) (by simp [hlen]) (by decide) (by decide)

theorem calmly_levelInt : Calmly (levelInt env) :=
  Tame.getState_bind (fun _ => rfl) fun _ =>
    Tame.ite (calmly_relay env (by decide) (by decide)) (calmly_relay env (by decide) (by decide))

theorem calmly_levelFinal (l : McLocals) : Calmly (levelFinal env l) := by
  refine Tame.bind ?_ fun _ =>
    Tame.bind (Tame.onlyIf (Spoken.calmly (told_tunnelMsg _))) fun _ => Tame.pure _
  unfold levelFinalize
  refine tame_recvVarW _ fun x hx => tame_recvVarW _ fun y hy => tame_recvVarW _ fun z hz => ?_
  refine Tame.bind (Tame.update (fun _ => rfl) (fun _ => rfl)) fun _ => Tame.bind (Tame.packet ?_) fun _ => ?_
  · exact calm_of_length (n := 6) (by simp [hx, hy, hz]) (by decide) (by decide)
  · exact Tame.getState_bind (fun _ => rfl) fun _ =>
      Tame.ite Tame.exit (Tame.update (fun _ => rfl) (fun _ => rfl))

theorem calmly_setBlockPacket : Calmly (setBlockPacket env) := by
  unfold setBlockPacket
  refine tame_recvVarW _ fun x hx => tame_recvVarW _ fun y hy => tame_recvVarW _ fun z hz =>
    tame_recvVarW _ fun block hblock => ?_
  refine Tame.bind (Tame.packet ?_) fun _ => Tame.update (fun _ => rfl) (fun _ => rfl)
  exact calm_of_length (n := 7) (by simp [hx, hy, hz, hblock]) (by decide) (by decide)

theorem calmly_levelData : Calmly (levelData env) := by
  unfold levelData
  refine tame_recvVarW _ fun chunkLen hlen => Tame.bind (Tame.update (fun _ => rfl) (fun _ => rfl)) fun _ => ?_
  refine Tame.ite Tame.exit ?_
  refine Tame.bind (tame_recvW _) fun r => Tame.bind (tame_recvW _) fun g => ?_
  refine tame_recvVarW _ fun percent2 hpercent => ?_
  refine Tame.bind (Tame.update (fun _ => rfl) (fun _ => rfl)) fun _ => Tame.packet (calm_serverSock ?_)
  have hbytes : ∀ pass filler : List Call, ([Call.sendW [0x03], Call.sendW chunkLen] ++ pass ++ filler ++
      [Call.sendW percent2]).flatMap Call.bytes =
      0x03 :: (chunkLen ++ (pass.flatMap Call.bytes ++ (filler.flatMap Call.bytes ++ percent2))) := by
    intro pass filler
    simp
  refine ⟨0x03, _, hbytes [_] _, Or.inr ⟨rfl, rfl, ?_⟩⟩
  simp only [List.length_append, hlen, hpercent]
  omega

theorem calmly_spawnPlayer : Calmly (spawnPlayer env) := by
  unfold spawnPlayer
  refine tame_recvVarW _ fun pid hpid => tame_recvVarW _ fun username hname => tame_recvVarW _ fun x hx =>
    tame_recvVarW _ fun y hy => tame_recvVarW _ fun z hz => tame_recvVarW _ fun yaw hyaw =>
    tame_recvVarW _ fun pitch hpitch => ?_
  refine Tame.bind (Tame.update (fun _ => rfl) (fun _ => rfl)) fun _ => Tame.packet ?_
  exact calm_of_length (n := 73) (by simp [hpid, hname, hx, hy, hz, hyaw, hpitch]) (by decide) (by decide)

/-- A plotmotioned player walks the user along. -/
theorem spoken_follow (i : Int) : Spoken Walked (follow i) := by
  have hteleport : ∀ x y z yaw pitch, Spoken Walked (tunnelTeleport x y z yaw pitch) :=
    spoken_tunnelTeleport (fun _ => walked_serverSock)
  refine Mild.getState_bind (fun _ => rfl) fun t => Mild.bind (Mild.onlyIf (hteleport _ _ _ _ _)) fun _ => ?_
  exact Mild.onlyIf (Mild.bind (hteleport _ _ _ _ _) fun _ => walked_setBlock _ _ _ _ _)

theorem wholly_follow (i : Int) : Wholly (follow i) := Spoken.wholly (spoken_follow i) (fun _ _ h => h.1)

theorem wholly_posAndOrientation : Wholly (posAndOrientation env) := by
  have hposition : ∀ width coord, width = 2 ∨ width = 4 → Wholly (position env width coord) := by
    intro width coord hwidth
    unfold position
    refine tame_recvVarW _ fun pid hpid => tame_recvVarW _ fun x hx => tame_recvVarW _ fun y hy =>
      tame_recvVarW _ fun z hz => tame_recvVarW _ fun yaw hyaw => tame_recvVarW _ fun pitch hpitch => ?_
    refine Tame.bind (Tame.update (fun _ => rfl) (fun _ => rfl)) fun _ =>
      Tame.bind (Tame.packet ?_) fun _ => wholly_follow _
    rcases hwidth with rfl | rfl
    · exact isPacket_of_length (n := 9) (by simp [hpid, hx, hy, hz, hyaw, hpitch]) (by decide)
    · exact isPacket_of_length (n := 15) (by simp [hpid, hx, hy, hz, hyaw, hpitch]) (by decide)
  exact Tame.getState_bind (fun _ => rfl) fun _ =>
    Tame.ite (hposition 4 _ (Or.inr rfl)) (hposition 2 _ (Or.inl rfl))

theorem wholly_posOffsetUpdate : Wholly (posOffsetUpdate env) := by
  unfold posOffsetUpdate
  refine tame_recvVarW _ fun pid hpid => tame_recvVarW _ fun x hx => tame_recvVarW _ fun y hy =>
    tame_recvVarW _ fun z hz => tame_recvVarW _ fun yaw hyaw => tame_recvVarW _ fun pitch hpitch => ?_
  refine Tame.bind (Tame.update (fun _ => rfl) (fun _ => rfl)) fun _ =>
    Tame.bind (Tame.packet ?_) fun _ => wholly_follow _
  exact isPacket_of_length (n := 6) (by simp [hpid, hx, hy, hz, hyaw, hpitch]) (by decide)

theorem wholly_posUpdate : Wholly (posUpdate env) := by
  unfold posUpdate
  refine tame_recvVarW _ fun pid hpid => tame_recvVarW _ fun x hx => tame_recvVarW _ fun y hy =>
    tame_recvVarW _ fun z hz => ?_
  refine Tame.bind (Tame.update (fun _ => rfl) (fun _ => rfl)) fun _ =>
    Tame.bind (Tame.packet ?_) fun _ => wholly_follow _
  exact isPacket_of_length (n := 4) (by simp [hpid, hx, hy, hz]) (by decide)

theorem calmly_orientationUpdate : Calmly (orientationUpdate env) := by
  unfold orientationUpdate
  refine tame_recvVarW _ fun pid hpid => tame_recvVarW _ fun yaw hyaw => tame_recvVarW _ fun pitch hpitch => ?_
  refine Tame.bind (Tame.update (fun _ => rfl) (fun _ => rfl)) fun _ => Tame.packet ?_
  exact calm_of_length (n := 3) (by simp [hpid, hyaw, hpitch]) (by decide) (by decide)

theorem calmly_playerDisconnect : Calmly (playerDisconnect env) := by
  unfold playerDisconnect
  refine tame_recvVarW _ fun pid hpid => ?_
  refine Tame.bind (Tame.packet ?_) fun _ => Tame.update (fun _ => rfl) (fun _ => rfl)
  exact calm_of_length (n := 1) (by simp [hpid]) (by decide) (by decide)

theorem calmly_kick : Calmly (kick env) := by
  unfold kick
  refine tame_recvVarW _ fun msg hmsg => ?_
  refine Tame.bind (Tame.update (fun _ => rfl) (fun _ => rfl)) fun _ =>
    Tame.bind (Tame.packet ?_) fun _ => Tame.exit
  exact calm_of_length (n := 64) (by simp [hmsg]) (by decide) (by decide)

theorem calmly_extInfo : Calmly (extInfo env) := by
  unfold extInfo
  refine tame_recvVarW _ fun app happ => tame_recvVarW _ fun count hcount => Tame.packet ?_
  exact calm_of_length (n := 66) (by simp [happ]) (by decide) (by decide)

theorem calmly_extEntry : Calmly (extEntry env) := by
  unfold extEntry
  refine tame_recvVarW _ fun extname hname => tame_recvVarW _ fun version hversion => ?_
  refine Tame.bind (Tame.update (fun _ => rfl) (fun _ => rfl)) fun _ => Tame.packet ?_
  exact calm_of_length (n := 68) (by simp [hname, hversion]) (by decide) (by decide)

theorem calmly_holdThis : Calmly (holdThis env) := by
  unfold holdThis
  exact tame_recvVar _ fun _ _ => tame_recvVar _ fun _ _ => Tame.pure _

theorem calmly_extAddEntity2 : Calmly (extAddEntity2 env) := by
  refine Tame.getState_bind (fun _ => rfl) fun t => Tame.ite ?_ ?_
  · refine tame_recvVarW _ fun _ _ => tame_recvVarW _ fun _ _ => tame_recvVarW _ fun _ _ =>
      tame_recvVarW _ fun _ _ => tame_recvVarW _ fun _ _ => tame_recvVarW _ fun _ _ =>
      tame_recvVarW _ fun _ _ => tame_recvVarW _ fun _ _ => ?_
    exact Tame.update (fun _ => rfl) (fun _ => rfl)
  · refine tame_recvVarW _ fun id hid => tame_recvVarW _ fun ingame hingame =>
      tame_recvVarW _ fun skin hskin => tame_recvVarW _ fun x hx => tame_recvVarW _ fun y hy =>
      tame_recvVarW _ fun z hz => tame_recvVarW _ fun yaw hyaw => tame_recvVarW _ fun pitch hpitch => ?_
    refine Tame.bind (Tame.packet ?_) fun _ => Tame.update (fun _ => rfl) (fun _ => rfl)
    exact calm_of_length (n := 137) (by simp [hid, hingame, hskin, hx, hy, hz, hyaw, hpitch]) (by decide)
      (by decide)

theorem calmly_extRemovePlayerName : Calmly (extRemovePlayerName env) := by
  unfold extRemovePlayerName
  refine tame_recvVarW _ fun nameid hid => ?_
  refine Tame.bind (Tame.packet ?_) fun _ => Tame.update (fun _ => rfl) (fun _ => rfl)
  exact calm_of_length (n := 2) (by simp [hid]) (by decide) (by decide)

theorem calmly_setBlockPermission : Calmly (setBlockPermission env) := by
  unfold setBlockPermission
  refine tame_recvVarW _ fun block hblock => tame_recvVarW _ fun place hplace =>
    tame_recvVarW _ fun del hdel => ?_
  refine Tame.getState_bind (fun _ => rfl) fun t => Tame.ite (Tame.packet ?_) (Tame.packet ?_)
  · exact calm_of_length (n := 3) (by simp [hblock]) (by decide) (by decide)
  · exact calm_of_length (n := 3) (by simp [hblock, hplace, hdel]) (by decide) (by decide)

theorem calmly_hackcontrol : Calmly (hackcontrol env) := by
  unfold hackcontrol
  refine tame_recvVarW _ fun flying hfly => tame_recvVarW _ fun noclip hclip =>
    tame_recvVarW _ fun walk hwalk => tame_recvVarW _ fun runspeed hrun =>
    tame_recvVarW _ fun respawn hrespawn => tame_recvVarW _ fun jump hjump => ?_
  refine Tame.getState_bind (fun _ => rfl) fun t => Tame.ite (Tame.packet ?_) (Tame.packet ?_)
  · exact calm_of_length (n := 7) (by simp) (by decide) (by decide)
  · exact calm_of_length (n := 7) (by simp [hfly, hclip, hwalk, hrun, hrespawn, hjump]) (by decide) (by decide)

theorem calmly_entityProperty : Calmly (entityProperty env) := by
  unfold entityProperty
  exact tame_recvVarW _ fun _ _ => tame_recvVarW _ fun _ _ => tame_recvVarW _ fun _ _ => Tame.pure _

theorem calmly_disconnected : Calmly disconnected :=
  Tame.bind (Tame.packet (calm_of_length (n := 64) (by simp) (by decide) (by decide))) fun _ => Tame.exit

/-- The relays do not move the user. -/
theorem calmly_relays {r : Relay} (hr : r ∈ relays) : Calmly (relay env serverSock r) := by
  have hall : ∀ r ∈ relays, (r.id, r.width) ∈ sentPackets serverSock ∧ r.id ≠ 0x08 := by decide
  exact calmly_relay env (hall r hr).1 (hall r hr).2

/-- **The handlers of `mcConnect`** leave the user where he is, but for the three position updates. -/
theorem calmly_handler {e : UInt8 × Code Unit} (he : e ∈ handlers env)
    (hid : e.1 ≠ 0x08 ∧ e.1 ≠ 0x09 ∧ e.1 ≠ 0x0a) : Calmly e.2 := by
  rcases List.mem_append.mp he with he | he
  · obtain ⟨r, hr, rfl⟩ := List.mem_map.mp he
    exact calmly_relays env hr
  · simp only [List.mem_cons, List.not_mem_nil, or_false] at he
    rcases he with rfl | rfl | rfl | rfl | rfl | rfl | rfl | rfl | rfl | rfl | rfl | rfl | rfl | rfl | rfl |
      rfl | rfl
    · exact calmly_levelInt env
    · exact calmly_levelData env
    · exact calmly_setBlockPacket env
    · exact calmly_spawnPlayer env
    · exact absurd rfl hid.1
    · exact absurd rfl hid.2.1
    · exact absurd rfl hid.2.2
    · exact calmly_orientationUpdate env
    · exact calmly_playerDisconnect env
    · exact calmly_extInfo env
    · exact calmly_extEntry env
    · exact calmly_holdThis env
    · exact calmly_extAddEntity2 env
    · exact calmly_extRemovePlayerName env
    · exact calmly_setBlockPermission env
    · exact calmly_hackcontrol env
    · exact calmly_entityProperty env

/-- A packet that is not one of the three position updates. -/
theorem calmly_dispatch {id : UInt8} (hid : id ≠ 0x08 ∧ id ≠ 0x09 ∧ id ≠ 0x0a) (l : McLocals) :
    Calmly (dispatch env id l) := by
  refine Tame.ite (calmly_serverMotd env l) (Tame.ite (calmly_levelFinal env l) (Tame.ite (calmly_kick env) ?_))
  cases hc : (handlers env).lookup id with
  | none => exact Tame.pure _
  | some c => exact Tame.bind (calmly_handler env (mem_of_lookup hc) hid) fun _ => Tame.pure _

/-- The three position updates. -/
theorem wholly_update {id : UInt8} (hid : id = 0x08 ∨ id = 0x09 ∨ id = 0x0a) :
    ∃ c, (id, c) ∈ handlers env ∧ Wholly c := by
  rcases hid with rfl | rfl | rfl
  · exact ⟨_, own_mem (by repeat constructor), wholly_posAndOrientation env⟩
  · exact ⟨_, own_mem (by repeat constructor), wholly_posOffsetUpdate env⟩
  · exact ⟨_, own_mem (by repeat constructor), wholly_posUpdate env⟩

theorem wholly_dispatch (id : UInt8) (l : McLocals) : Wholly (dispatch env id l) := by
  by_cases hid : id = 0x08 ∨ id = 0x09 ∨ id = 0x0a
  · obtain ⟨c, hc, hwholly⟩ := wholly_update env hid
    rw [dispatch_of_mem hc]
    exact Tame.bind hwholly fun _ => Tame.pure _
  · push Not at hid
    exact Calmly.wholly (calmly_dispatch env hid l)

end Client

theorem wholly_mcConnect (env : Env) (l : McLocals) : Wholly (mcConnect env l) :=
  Tame.bind (tame_recvW 1) fun _ =>
    Tame.ite (Calmly.wholly Client.calmly_disconnected) (Client.wholly_dispatch env _ l)

theorem calmly_mcLogin : Calmly mcLogin := by
  refine Tame.getState_bind (fun _ => rfl) fun t => Tame.bind (Tame.update (fun _ => rfl) (fun _ => rfl)) fun _ =>
    Tame.packet ?_
  exact calm_of_length (n := 130) (by simp [length_toMCString]) (by decide) (by decide)

/-! ## The handlers of `tunnelServer` -/

namespace Server

variable (env : Env)

theorem calmly_sendMessage (what : UInt8) (message : Bytes) : Calmly (sendMessage what message) :=
  Tame.packet (calm_of_length (n := 65) (by simp [length_toMCString]) (by decide) (by decide))

theorem calmly_login : Calmly (login env) := by
  unfold login
  refine tame_recvVarW _ fun _ _ => tame_recvVarW _ fun _ _ => tame_recvVarW _ fun _ _ => ?_
  exact Tame.bind (tame_recvW 1) fun _ =>
    Tame.bind (Tame.update (fun _ => rfl) (fun _ => rfl)) fun _ => Tame.pure _

/-- A message to the client. -/
def Answered (s : Socket) (bs : Bytes) : Prop := Heard s bs ∧ bs.head? = some 0x0d

/-- What asks one of the three operations answers with messages, and keeps what commands keep, and the players. -/
abbrev Asked (c : Code Unit) : Prop := Mild (fun t => (t.keptUser, t.player)) Tunnel.read Answered c

theorem asked_tunnelMsg (msg : Bytes) : Asked (tunnelMsg msg) :=
  Mild.packet ⟨⟨isPacket_of_length (n := 65) (by simp [length_toMCString]) (by decide), rfl⟩, rfl⟩

theorem asked_cuboidPoint (x y z : UInt16) (blocktype : UInt8) : Asked (cuboidPoint x y z blocktype) := by
  refine Mild.getState_bind (fun _ => rfl) fun t => Mild.ite (Mild.ite ?_ (Mild.ite ?_ (Mild.pure _))) (Mild.pure _)
  · exact Mild.bind (Mild.update (fun _ => rfl) (fun _ => rfl)) fun _ => asked_tunnelMsg _
  · exact Mild.bind (Mild.update (fun _ => rfl) (fun _ => rfl)) fun _ => asked_tunnelMsg _

theorem asked_pastePoint (x y z : UInt16) : Asked (pastePoint x y z) := by
  refine Mild.getState_bind (fun _ => rfl) fun t => Mild.ite ?_ (Mild.pure _)
  exact Mild.bind (Mild.update (fun _ => rfl) (fun _ => rfl)) fun _ =>
    Mild.bind (asked_tunnelMsg _) fun _ => Mild.update (fun _ => rfl) (fun _ => rfl)

theorem asked_copyPoint (x y z : UInt16) : Asked (copyPoint x y z) := by
  refine Mild.getState_bind (fun _ => rfl) fun t => Mild.ite (Mild.ite ?_ (Mild.ite ?_ (Mild.pure _))) (Mild.pure _)
  · exact Mild.bind (Mild.update (fun _ => rfl) (fun _ => rfl)) fun _ => asked_tunnelMsg _
  · exact Mild.bind (Mild.update (fun _ => rfl) (fun _ => rfl)) fun _ => asked_tunnelMsg _

/-- A click that sets a point writes to the client only, and touches no player. -/
theorem mild_point (x y z : Bytes) (blocktype : UInt8) :
    (point x y z blocktype).Mild (fun t => (t.keptUser, t.player)) Tunnel.read Heard := by
  have hasked : ∀ {c : Code Unit}, Asked c → c.Mild (fun t => (t.keptUser, t.player)) Tunnel.read Heard :=
    fun h => h.mono id (fun _ _ => And.left)
  have hrevert : (revert x y z).Mild (fun t => (t.keptUser, t.player)) Tunnel.read Heard :=
    Mild.getState_bind (fun _ => rfl) fun _ =>
      Mild.packet ⟨isPacket_of_length (n := 7) (by simp) (by decide), rfl⟩
  refine Mild.bind (hasked (asked_cuboidPoint _ _ _ _)) fun _ => Mild.bind (hasked (asked_pastePoint _ _ _)) fun _ =>
    Mild.bind (hasked (asked_copyPoint _ _ _)) fun _ => ?_
  exact Mild.bind hrevert fun _ => Mild.bind hrevert fun _ => hrevert

theorem told_point (x y z : Bytes) (blocktype : UInt8) : Spoken Told (point x y z blocktype) :=
  (mild_point x y z blocktype).mono Prod.fst (fun _ _ => Heard.told)

theorem calmly_setBlockClick : Calmly (setBlockClick env) := by
  unfold setBlockClick
  refine tame_recvVarW _ fun x hx => tame_recvVarW _ fun y hy => tame_recvVarW _ fun z hz =>
    tame_recvVarW _ fun mode hmode => tame_recvVarW _ fun blocktype hblock => ?_
  refine Tame.getState_bind (fun _ => rfl) fun t => Tame.ite (Spoken.calmly (told_point x y z _)) (Tame.packet ?_)
  have hone : ∀ (b : UInt8) {v : Bytes}, v.length = 1 → (if t.paint then [b] else v).length = 1 := by
    intro b v hv
    split
    · rfl
    · exact hv
  exact calm_of_length (n := 8) (by simp [hx, hy, hz, hone _ hmode, hone _ hblock]) (by decide) (by decide)

/-- The position of the client is passed on, or kept for nobody. -/
theorem writes_posUpdate : Writes (posUpdate env) := by
  unfold posUpdate
  refine tame_recvVarW _ fun pid hpid => tame_recvVarW _ fun x hx => tame_recvVarW _ fun y hy =>
    tame_recvVarW _ fun z hz => tame_recvVarW _ fun yaw hyaw => tame_recvVarW _ fun pitch hpitch => ?_
  refine Tame.getState_bind (fun _ => rfl) fun t => Tame.ite ?_ (Tame.update (fun _ => rfl) (fun _ => rfl))
  refine Tame.bind (Tame.update (fun _ => rfl) (fun _ => rfl)) fun _ => Tame.packet ?_
  exact isPacket_of_length (n := 9) (by simp [hpid, hx, hy, hz, hyaw, hpitch]) (by decide)

theorem calmly_gimpMessage (what : UInt8) : Calmly (gimpMessage env what) := by
  refine Tame.bind ((modest_rand env).spoken.tame.mono (fun k => k.2.1) (fun _ _ => id)) fun r => ?_
  refine Tame.getState_bind (fun _ => rfl) fun t => Tame.ite Tame.exit ?_
  exact Tame.ite (Tame.forEach (fun _ => calmly_sendMessage _ _) _) (calmly_sendMessage _ _)

/-- A command from the chat, unless it is `ptp`. -/
theorem told_chatCommand {command : Bytes} (h : command ≠ ascii "ptp") : Spoken Told (chatCommand env command) :=
  Mild.bind (told_commandFunc env h) fun _ => Mild.onlyIf (told_tunnelMsg _)

theorem spoken_chatCommand (command : Bytes) : Spoken IsPacket (chatCommand env command) :=
  Mild.bind (spoken_commandFunc env command) fun _ =>
    Mild.onlyIf ((told_tunnelMsg _).mono id (fun _ _ h => h.1))

/-- What becomes of a received chat message. -/
def said (what message : Bytes) : Code Unit :=
  if isCommand env message then chatCommand env ((cleanMessage env message).drop 1)
  else do
    let t ← getState
    if t.gimped ∧ byte message ≠ 47 then onlyIf (byte what = 0) (gimpMessage env (byte what))
    else sendMessage (byte what) message

theorem chatMessage_eq : chatMessage env = (do
    let what ← recvVarW (env.var 1) 1
    let message ← recvVarW (env.var 2) 64
    said env what message) := rfl

/-- A message that is not a command. -/
theorem calmly_said {what message : Bytes} (h : isCommand env message = false) : Calmly (said env what message) := by
  unfold said
  rw [if_neg (by simp [h])]
  exact Tame.getState_bind (fun _ => rfl) fun t =>
    Tame.ite (Tame.onlyIf (calmly_gimpMessage env _)) (calmly_sendMessage _ _)

theorem wholly_said (what message : Bytes) : Wholly (said env what message) := by
  cases h : isCommand env message with
  | false => exact Calmly.wholly (calmly_said env h)
  | true =>
      unfold said
      rw [if_pos h]
      exact Spoken.wholly (spoken_chatCommand env _) (fun _ _ => id)

theorem wholly_chatMessage : Wholly (chatMessage env) := by
  rw [chatMessage_eq]
  exact tame_recvVarW _ fun what _ => tame_recvVarW _ fun message _ => wholly_said env what message

theorem calmly_extInfo : Calmly (extInfo env) := by
  unfold extInfo
  refine tame_recvVarW _ fun app happ => tame_recvVarW _ fun count hcount => Tame.packet ?_
  exact calm_of_length (n := 66) (by simp [happ]) (by decide) (by decide)

theorem calmly_extEntry : Calmly (extEntry env) := by
  unfold extEntry
  refine tame_recvVarW _ fun extname hname => tame_recvVarW _ fun version hversion => ?_
  refine Tame.bind (Tame.update (fun _ => rfl) (fun _ => rfl)) fun _ => Tame.packet ?_
  exact calm_of_length (n := 68) (by simp [hname, hversion]) (by decide) (by decide)

theorem calmly_textHotKey : Calmly (textHotKey env) := by
  unfold textHotKey
  refine tame_recvVarW _ fun label hlabel => tame_recvVarW _ fun action haction =>
    tame_recvVarW _ fun keycode hkey => tame_recvVarW _ fun _ _ => Tame.packet ?_
  exact calm_of_length (n := 132) (by simp [hlabel, haction, hkey]) (by decide) (by decide)

theorem calmly_extAddEntity2 : Calmly (extAddEntity2 env) := by
  unfold extAddEntity2
  refine tame_recvVar _ fun _ _ => tame_recvVarW _ fun ingame hingame => tame_recvVarW _ fun skin hskin =>
    tame_recvVarW _ fun x hx => tame_recvVarW _ fun y hy => tame_recvVarW _ fun z hz =>
    tame_recvVar _ fun yaw hyaw => tame_recvVar _ fun pitch hpitch => Tame.packet ?_
  exact calm_of_length (n := 136) (by simp [hingame, hskin, hx, hy, hz, hyaw, hpitch]) (by decide) (by decide)

theorem calmly_twoWayPing : Calmly (twoWayPing env) := by
  unfold twoWayPing
  refine tame_recvVarW _ fun ping hping => tame_recvVarW _ fun _ _ => Tame.packet ?_
  exact calm_of_length (n := 3) (by simp [hping]) (by decide) (by decide)

/-- **The handlers of `tunnelServer`** leave the user where he is, but for the position and the chat. -/
theorem calmly_handler {e : UInt8 × Code Unit} (he : e ∈ handlers env) (hid : e.1 ≠ 0x08 ∧ e.1 ≠ 0x0d) :
    Calmly e.2 := by
  rcases List.mem_append.mp he with he | he
  · obtain ⟨r, hr, rfl⟩ := List.mem_map.mp he
    have hall : ∀ r ∈ relays, (r.id, r.width) ∈ sentPackets tunnelSock ∧ r.id ≠ 0x08 := by decide
    exact Client.calmly_relay env (hall r hr).1 (hall r hr).2
  · simp only [List.mem_cons, List.not_mem_nil, or_false] at he
    rcases he with rfl | rfl | rfl | rfl | rfl | rfl | rfl | rfl
    · exact calmly_setBlockClick env
    · exact absurd rfl hid.1
    · exact absurd rfl hid.2
    · exact calmly_extInfo env
    · exact calmly_extEntry env
    · exact calmly_textHotKey env
    · exact calmly_extAddEntity2 env
    · exact calmly_twoWayPing env

theorem calmly_dispatch {id : UInt8} (hid : id ≠ 0x08 ∧ id ≠ 0x0d) (l : ServerLocals) :
    Calmly (dispatch env id l) := by
  refine Tame.ite (calmly_login env) ?_
  cases hc : (handlers env).lookup id with
  | none => exact Tame.pure _
  | some c => exact Tame.bind (calmly_handler env (mem_of_lookup hc) hid) fun _ => Tame.pure _

theorem writes_dispatch (id : UInt8) (l : ServerLocals) : Writes (dispatch env id l) := by
  by_cases hpos : id = 0x08
  · subst hpos
    rw [dispatch_of_mem (own_mem (e := (0x08, posUpdate env)) (by repeat constructor))]
    exact Tame.bind (writes_posUpdate env) fun _ => Tame.pure _
  by_cases hchat : id = 0x0d
  · subst hchat
    rw [dispatch_of_mem (own_mem (e := (0x0d, chatMessage env)) (by repeat constructor))]
    exact Tame.bind (Wholly.writes (wholly_chatMessage env)) fun _ => Tame.pure _
  · exact Wholly.writes (Calmly.wholly (calmly_dispatch env ⟨hpos, hchat⟩ l))

end Server

theorem writes_tunnelServer (env : Env) (l : ServerLocals) : Writes (tunnelServer env l) :=
  Tame.bind (tame_recvW 1) fun _ => Tame.ite Tame.exit (Server.writes_dispatch env _ l)

/-! ## What a round sends -/

/-- What a round of `tunnelServer` sends, its handler does. -/
theorem sent_tunnelServer {env : Env} {id : UInt8} {c : Code Unit} (hc : (id, c) ∈ Server.handlers env)
    (l : ServerLocals) (i : Bytes) (t : Tunnel) : (tunnelServer env l).sent (id :: i) t = c.sent i t := by
  rw [tunnelServer, sent_recvW_bind]
  show (Server.dispatch env id l).sent i t = _
  rw [Server.dispatch_of_mem hc, sent_bind_pure]

theorem sent_mcConnect {env : Env} {id : UInt8} {c : Code Unit} (hc : (id, c) ∈ Client.handlers env)
    (l : McLocals) (i : Bytes) (t : Tunnel) : (mcConnect env l).sent (id :: i) t = c.sent i t := by
  rw [mcConnect, sent_recvW_bind]
  show (Client.dispatch env id l).sent i t = _
  rw [Client.dispatch_of_mem hc, sent_bind_pure]

/-! ## The console and the builder -/

theorem told_consoleLine (env : Env) {line : Bytes} (h : cstr (line.drop 1) ≠ ascii "ptp") :
    Spoken Told (consoleLine env line) :=
  Mild.onlyIf (Mild.bind (told_commandFunc env h) fun _ => Mild.pure ())

theorem spoken_consoleLine (env : Env) (line : Bytes) : Spoken IsPacket (consoleLine env line) :=
  Mild.onlyIf (Mild.bind (spoken_commandFunc env _) fun _ => Mild.pure ())

theorem wholly_console (env : Env) : Wholly (console env) :=
  Tame.bind (Tame.recvCall 64) fun _ => Spoken.wholly (spoken_consoleLine env _) (fun _ _ => id)

theorem walked_perform (call : BuilderCall) : Spoken Walked (perform call) := by
  cases call with
  | setBlock x y z bid sendpos => exact walked_setBlock x y z bid sendpos
  | tunnelMsg msg => exact spoken_tunnelMsg (fun _ => walked_serverSock) msg

/-- An update of the builder: `user` and the hacks stay, and nothing depends on what `Tunnel.read` clears. -/
def Unmoved (f : Tunnel → Tunnel) : Prop := ∀ t, (f t).settled = t.settled ∧ (f t.read).read = (f t).read

theorem unmoved_end (stop : Tunnel → Tunnel) (h : Unmoved stop) (hidden : Bool) :
    Unmoved (fun t => unhide hidden (stop t)) := by
  intro t
  refine ⟨(h t).1, ?_⟩
  show unhide hidden (stop t.read).read = unhide hidden (stop t).read
  rw [(h t).2]

theorem BuilderStep.unmoved {env : Env} {t : Tunnel} {pc next : Pc} {f : Tunnel → Tunnel}
    (h : BuilderStep env t pc next f) : Unmoved f := by
  cases h with
  | pasteEnd p l => exact unmoved_end pasteStop (fun _ => ⟨rfl, rfl⟩) p.hidden
  | cuboidEnd hidden l => exact unmoved_end cuboidStop (fun _ => ⟨rfl, rfl⟩) hidden
  | _ => exact fun _ => ⟨rfl, rfl⟩

/-- **No iteration of the builder** changes `user`. -/
theorem unmoved_builderIteration (env : Env) (t : Tunnel) (pc : Pc) : Unmoved (builderIteration env t pc).update :=
  (builderStep env t pc).unmoved

/-- What the builder does after it has looked at the state. -/
def afterwards (it : Iteration) : Code Pc := do
  update it.update
  forEach perform it.calls
  match it.next with
  | .crashed => Prog.exit
  | pc' => pure pc'

theorem builder_eq (env : Env) (pc : Pc) :
    builder env pc = getState >>= fun t => afterwards (builderIteration env t pc) := rfl

/-- What follows an iteration of the builder. -/
theorem wholly_builder (env : Env) (pc : Pc) : Wholly (builder env pc) := by
  have hread : ∀ t : Tunnel, builderIteration env t.read pc = builderIteration env t pc := by
    intro t
    cases pc <;> rfl
  rw [builder_eq]
  refine Tame.getState_bind (fun t => congrArg afterwards (hread t)) fun t => ?_
  have hunmoved := unmoved_builderIteration env t pc
  refine Tame.bind (Tame.update (fun s => (hunmoved s).1) (fun s => (hunmoved s).2)) fun _ => ?_
  refine Tame.bind (Tame.forEach (fun call => ?_) _) fun _ => ?_
  · exact Spoken.wholly (walked_perform call) (fun _ _ h => h.1)
  · cases (builderIteration env t pc).next with
    | crashed => exact Tame.exit
    | _ => exact Tame.pure _

/-- **Every round of every thread** writes whole packets, and depends on nothing that `Tunnel.read` clears. -/
theorem writes_round (env : Env) (i : ThreadId) (l : Locals) : Writes (round env i l) := by
  have hpure : ∀ {α : Type} {c : Code α} (f : α → Locals), Writes c → Writes (do let a ← c; pure (f a)) :=
    fun f h => Tame.bind h fun _ => Tame.pure _
  cases i with
  | main =>
      cases l with
      | main => exact hpure (fun _ => Locals.main) (Wholly.writes (wholly_console env))
      | _ => exact Tame.pure _
  | tunnelServer =>
      cases l with
      | tunnelServer l => exact hpure Locals.tunnelServer (writes_tunnelServer env l)
      | _ => exact Tame.pure _
  | mcConnect =>
      cases l with
      | connecting => exact hpure (fun _ => Locals.mcConnect {}) (Wholly.writes (Calmly.wholly calmly_mcLogin))
      | mcConnect l => exact hpure Locals.mcConnect (Wholly.writes (wholly_mcConnect env l))
      | _ => exact Tame.pure _
  | builder =>
      cases l with
      | builder pc => exact hpure Locals.builder (Wholly.writes (wholly_builder env pc))
      | _ => exact Tame.pure _

end LavaTunnel
