import LavaTunnel.Correctness.ClientHandlers
import LavaTunnel.Correctness.Frames
import LavaTunnel.Correctness.Position

/-!
# `LavaTunnel.Correctness.RoundFrames` — what a turn touches

`Frames` for the two dispatch loops, and then for whole turns. A turn is one of five: it runs a command, it takes a
packet from the server, it takes a packet from the client, it runs an iteration of the builder, or it is the login
of `mcConnect`. For each of them one theorem says what it may change, what it may write to which socket, and what it
does not heed.
-/

namespace LavaTunnel

open Wire Wire.Prog

/-! ## The handlers of `mcConnect` -/

/-- What goes to the other socket than `dest` is made up. -/
def MadeBut (dest s : Socket) (bs : Bytes) : Prop := s ≠ dest → Made s bs

theorem madeBut_self {dest : Socket} (bs : Bytes) : MadeBut dest dest bs := fun h => absurd rfl h

theorem Made.but {s : Socket} {bs : Bytes} (h : Made s bs) (dest : Socket) : MadeBut dest s bs := fun _ => h

/-- The state without what the packets of the server change, apart from the modes. -/
def Tunnel.besidesServer (t : Tunnel) : Tunnel :=
  { t with
    motd := []
    servername := []
    mapC := []
    mapSize := 0
    map := fun _ => 0
    mapAlloc := 0
    lvlx := 0
    lvly := 0
    lvlz := 0
    cpeClient := {}
    cuboid := { t.cuboid with halt := false }
    player := fun _ => {} }

/-- What a packet of the server may change. A player that leaves is let go. -/
def ServerTurn (t t' : Tunnel) : Prop :=
  t'.besidesServer = t.besidesServer ∧ ModesIn (fun mode => mode = 0) t t'

theorem serverTurn_refl (t : Tunnel) : ServerTurn t t := ⟨rfl, modesIn_refl t⟩

theorem ServerTurn.trans {a b c : Tunnel} (hab : ServerTurn a b) (hbc : ServerTurn b c) : ServerTurn a c :=
  ⟨hbc.1.trans hab.1, hab.2.trans hbc.2⟩

/-- What a packet of the server may change that announces no extension. -/
def ServerSide (t t' : Tunnel) : Prop := ServerTurn t t' ∧ t'.cpeClient = t.cpeClient

theorem serverSide_refl (t : Tunnel) : ServerSide t t := ⟨serverTurn_refl t, rfl⟩

theorem ServerSide.trans {a b c : Tunnel} (hab : ServerSide a b) (hbc : ServerSide b c) : ServerSide a c :=
  ⟨hab.1.trans hbc.1, hbc.2.trans hab.2⟩

/-- Code that receives. -/
theorem framed_recvVarW {R : Tunnel → Tunnel → Prop} (hrefl : ∀ t, R t t) {blur : Tunnel → Tunnel}
    {P : Socket → Bytes → Prop} (env : Env) {α : Type} {n : Nat} {f : Bytes → Code α}
    (h : ∀ v, (f v).Framed R blur P) : (recvVarW env n >>= f).Framed R blur P := by
  have hrecv : (recvVarW env n).Tame id blur P := by
    rw [← bind_pure' (recvVarW env n)]
    exact tame_recvVarW _ (fun _ _ => Tame.pure _)
  exact Framed.bind (hrecv.framed hrefl) h

namespace Client

/-- A handler of `mcConnect` that writes what is in `P`. -/
abbrev Serves {α : Type} (P : Socket → Bytes → Prop) (c : Code α) : Prop := c.Framed ServerSide Tunnel.heeded P

section Handlers

/-- The ids of the packets that `mcConnect` does not just pass on. -/
def servedIds : List UInt8 :=
  [0x00, 0x02, 0x03, 0x04, 0x06, 0x07, 0x08, 0x09, 0x0a, 0x0b, 0x0c, 0x0d, 0x0e, 0x10, 0x11, 0x18, 0x1C, 0x20, 0x21]

variable (env : Env) {P : Socket → Bytes → Prop} (hP : ∀ id ∈ servedIds, ∀ bs, P serverSock (id :: bs))

theorem serves_recvVarW {α : Type} {n : Nat} {f : Bytes → Code α} (h : ∀ v, Serves P (f v)) :
    Serves P (recvVarW env n >>= f) := framed_recvVarW serverSide_refl env h

/-- An update that leaves the players and the extensions alone. -/
theorem serves_update {f : Tunnel → Tunnel} (h : ∀ t, (f t).besidesServer = t.besidesServer ∧
    (f t).player = t.player ∧ (f t).cpeClient = t.cpeClient) (hheed : ∀ t, (f t.heeded).heeded = (f t).heeded) :
    Serves P (update f : Code Unit) := by
  refine Framed.update (fun t => ⟨⟨(h t).1, fun i => Or.inl ?_⟩, (h t).2.2⟩) hheed
  rw [(h t).2.1]

/-- A record is changed, in the same mode or to none. -/
theorem serves_setPlayer {i : Int} {f : Tunnel → Player → Player}
    (hmode : ∀ t p, (f t p).mode = p.mode ∨ (f t p).mode = 0)
    (hheed : ∀ (t : Tunnel) p, (f t.heeded p.heeded).heeded = (f t p).heeded) :
    Serves P (update (fun t => t.setPlayer i (f t)) : Code Unit) :=
  Framed.update (fun t => ⟨⟨rfl, modesIn_setPlayer (hmode t)⟩, rfl⟩) (fun t => heeded_setPlayer (hheed t))

theorem serves_addEntity (entityid skinname yaw pitch : Bytes) :
    Serves P (update (addEntity env entityid skinname yaw pitch) : Code Unit) := by
  unfold addEntity
  generalize cleanString env (env.undef 64) skinname = name
  exact serves_setPlayer (fun _ _ => Or.inl rfl) (fun _ _ => rfl)

/-- Two handlers receive and do nothing. -/
theorem serves_holdThis : Serves P (holdThis env) :=
  Tame.framed serverSide_refl (tame_recvVar _ fun _ _ => tame_recvVar _ fun _ _ => Tame.pure _)

theorem serves_entityProperty : Serves P (entityProperty env) :=
  serves_recvVarW _ fun _ => serves_recvVarW _ fun _ => serves_recvVarW _ fun _ => Framed.pure _

theorem serves_relay {r : Relay} (hr : ∀ bs, P serverSock (r.id :: bs)) : Serves P (relay env serverSock r) :=
  Tame.framed serverSide_refl (tame_relay env fun _ _ => hr _)

/-! The handlers that write. -/

include hP

theorem serves_packet {id : UInt8} (hid : id ∈ servedIds) (cs : List Call) :
    Serves P (packet serverSock (Call.sendW [id] :: cs) : Code Unit) := Framed.packet (hP id hid _)

theorem serves_serverMotd (l : McLocals) : Serves P (serverMotd env l) := by
  refine serves_recvVarW _ fun _ => serves_recvVarW _ fun cservername => serves_recvVarW _ fun cmotd => ?_
  refine Framed.bind (Tame.framed serverSide_refl (Tame.recvCall 1)) fun r =>
    Framed.getState_bind (fun _ => rfl) fun t => ?_
  exact Framed.bind (serves_packet hP (by decide) _) fun _ =>
    Framed.bind (serves_update (fun _ => ⟨rfl, rfl, rfl⟩) (fun _ => rfl)) fun _ => Framed.pure _

theorem serves_levelInt : Serves P (levelInt env) :=
  Framed.getState_bind (fun _ => rfl) fun _ =>
    Framed.ite (serves_relay env (hP 0x02 (by decide))) (serves_relay env (hP 0x02 (by decide)))

theorem serves_levelData : Serves P (levelData env) := by
  refine serves_recvVarW _ fun chunkLen =>
    Framed.bind (serves_update (fun _ => ⟨rfl, rfl, rfl⟩) (fun _ => rfl)) fun _ => Framed.ite Framed.exit ?_
  refine Framed.bind (Tame.framed serverSide_refl (tame_recvW _)) fun r =>
    Framed.bind (Tame.framed serverSide_refl (tame_recvW _)) fun g => serves_recvVarW _ fun percent2 => ?_
  exact Framed.bind (serves_update (fun _ => ⟨rfl, rfl, rfl⟩) (fun _ => rfl)) fun _ => serves_packet hP (by decide) _

theorem serves_levelFinal (l : McLocals) : Serves P (levelFinal env l) := by
  refine Framed.bind ?_ fun _ => Framed.bind (Framed.onlyIf (serves_packet hP (by decide) _)) fun _ => Framed.pure _
  refine serves_recvVarW _ fun x => serves_recvVarW _ fun y => serves_recvVarW _ fun z => ?_
  refine Framed.bind (serves_update (fun _ => ⟨rfl, rfl, rfl⟩) (fun _ => rfl)) fun _ =>
    Framed.bind (serves_packet hP (by decide) _) fun _ => Framed.getState_bind (fun _ => rfl) fun t => ?_
  exact Framed.ite Framed.exit (serves_update (fun _ => ⟨rfl, rfl, rfl⟩) (fun _ => rfl))

theorem serves_setBlockPacket : Serves P (setBlockPacket env) := by
  refine serves_recvVarW _ fun x => serves_recvVarW _ fun y => serves_recvVarW _ fun z =>
    serves_recvVarW _ fun block => ?_
  exact Framed.bind (serves_packet hP (by decide) _) fun _ => serves_update (fun _ => ⟨rfl, rfl, rfl⟩) (fun _ => rfl)

/-- The ignore list only decides on a flag that nobody heeds. -/
theorem serves_spawnPlayer : Serves P (spawnPlayer env) := by
  refine serves_recvVarW _ fun pid => serves_recvVarW _ fun username => serves_recvVarW _ fun x =>
    serves_recvVarW _ fun y => serves_recvVarW _ fun z => serves_recvVarW _ fun yaw =>
    serves_recvVarW _ fun pitch => ?_
  exact Framed.bind (serves_setPlayer (fun _ _ => Or.inl rfl) (fun _ _ => rfl)) fun _ => serves_packet hP (by decide) _

theorem serves_posAndOrientation (hfollow : ∀ i, Serves P (follow i)) : Serves P (posAndOrientation env) := by
  have hposition : ∀ width coord, Serves P (position env width coord) := by
    intro width coord
    refine serves_recvVarW _ fun pid => serves_recvVarW _ fun x => serves_recvVarW _ fun y =>
      serves_recvVarW _ fun z => serves_recvVarW _ fun yaw => serves_recvVarW _ fun pitch => ?_
    exact Framed.bind (serves_setPlayer (fun _ _ => Or.inl rfl) (fun _ _ => rfl)) fun _ =>
      Framed.bind (serves_packet hP (by decide) _) fun _ => hfollow _
  exact Framed.getState_bind (fun _ => rfl) fun _ => Framed.ite (hposition _ _) (hposition _ _)

theorem serves_posOffsetUpdate (hfollow : ∀ i, Serves P (follow i)) : Serves P (posOffsetUpdate env) := by
  refine serves_recvVarW _ fun pid => serves_recvVarW _ fun x => serves_recvVarW _ fun y =>
    serves_recvVarW _ fun z => serves_recvVarW _ fun yaw => serves_recvVarW _ fun pitch => ?_
  exact Framed.bind (serves_setPlayer (fun _ _ => Or.inl rfl) (fun _ _ => rfl)) fun _ =>
    Framed.bind (serves_packet hP (by decide) _) fun _ => hfollow _

theorem serves_posUpdate (hfollow : ∀ i, Serves P (follow i)) : Serves P (posUpdate env) := by
  refine serves_recvVarW _ fun pid => serves_recvVarW _ fun x => serves_recvVarW _ fun y =>
    serves_recvVarW _ fun z => ?_
  exact Framed.bind (serves_setPlayer (fun _ _ => Or.inl rfl) (fun _ _ => rfl)) fun _ =>
    Framed.bind (serves_packet hP (by decide) _) fun _ => hfollow _

theorem serves_orientationUpdate : Serves P (orientationUpdate env) := by
  refine serves_recvVarW _ fun pid => serves_recvVarW _ fun yaw => serves_recvVarW _ fun pitch => ?_
  exact Framed.bind (serves_setPlayer (fun _ _ => Or.inl rfl) (fun _ _ => rfl)) fun _ => serves_packet hP (by decide) _

/-- A player that leaves is followed no more. -/
theorem serves_playerDisconnect : Serves P (playerDisconnect env) := by
  refine serves_recvVarW _ fun pid => Framed.bind (serves_packet hP (by decide) _) fun _ => ?_
  exact serves_setPlayer (fun _ _ => Or.inr rfl) (fun _ _ => rfl)

theorem serves_kick : Serves P (kick env) := by
  refine serves_recvVarW _ fun msg => ?_
  exact Framed.bind (serves_update (fun _ => ⟨rfl, rfl, rfl⟩) (fun _ => rfl)) fun _ =>
    Framed.bind (serves_packet hP (by decide) _) fun _ => Framed.exit

theorem serves_extInfo : Serves P (extInfo env) :=
  serves_recvVarW _ fun _ => serves_recvVarW _ fun _ => serves_packet hP (by decide) _

/-- Only an entry announces an extension. -/
theorem turns_extEntry : (extEntry env).Framed ServerTurn Tunnel.heeded P := by
  refine framed_recvVarW serverTurn_refl _ fun extname => framed_recvVarW serverTurn_refl _ fun version => ?_
  refine Framed.bind (Framed.update (fun t => ⟨rfl, fun i => Or.inl rfl⟩) (fun _ => rfl)) fun _ => ?_
  exact Framed.packet (hP 0x11 (by decide) _)

theorem serves_extAddEntity2 : Serves P (extAddEntity2 env) := by
  refine Framed.getState_bind (fun _ => rfl) fun t => Framed.ite ?_ ?_
  · exact serves_recvVarW _ fun _ => serves_recvVarW _ fun _ => serves_recvVarW _ fun _ =>
      serves_recvVarW _ fun _ => serves_recvVarW _ fun _ => serves_recvVarW _ fun _ =>
      serves_recvVarW _ fun _ => serves_recvVarW _ fun _ => serves_addEntity env _ _ _ _
  · refine serves_recvVarW _ fun _ => serves_recvVarW _ fun _ => serves_recvVarW _ fun _ =>
      serves_recvVarW _ fun _ => serves_recvVarW _ fun _ => serves_recvVarW _ fun _ =>
      serves_recvVarW _ fun _ => serves_recvVarW _ fun _ => ?_
    exact Framed.bind (serves_packet hP (by decide) _) fun _ => serves_addEntity env _ _ _ _

theorem serves_extRemovePlayerName : Serves P (extRemovePlayerName env) := by
  refine serves_recvVarW _ fun nameid => Framed.bind (serves_packet hP (by decide) _) fun _ => ?_
  exact serves_setPlayer (fun _ _ => Or.inl rfl) (fun _ _ => rfl)

theorem serves_setBlockPermission : Serves P (setBlockPermission env) := by
  refine serves_recvVarW _ fun _ => serves_recvVarW _ fun _ => serves_recvVarW _ fun _ => ?_
  exact Framed.getState_bind (fun _ => rfl) fun t =>
    Framed.ite (serves_packet hP (by decide) _) (serves_packet hP (by decide) _)

theorem serves_hackcontrol : Serves P (hackcontrol env) := by
  refine serves_recvVarW _ fun _ => serves_recvVarW _ fun _ => serves_recvVarW _ fun _ =>
    serves_recvVarW _ fun _ => serves_recvVarW _ fun _ => serves_recvVarW _ fun _ => ?_
  exact Framed.getState_bind (fun _ => rfl) fun t =>
    Framed.ite (serves_packet hP (by decide) _) (serves_packet hP (by decide) _)

theorem serves_disconnected : Serves P disconnected := Framed.bind (serves_packet hP (by decide) _) fun _ => Framed.exit

/-- **The handlers of `mcConnect`** write to the client. Three of them also follow a player. -/
theorem serves_handler {e : UInt8 × Code Unit} (he : e ∈ handlers env) (hentry : e.1 ≠ 0x11)
    (hrelay : ∀ bs, P serverSock (e.1 :: bs))
    (hfollow : (e.1 = 0x08 ∨ e.1 = 0x09 ∨ e.1 = 0x0a) → ∀ i, Serves P (follow i)) : Serves P e.2 := by
  rcases List.mem_append.mp he with he | he
  · obtain ⟨r, hr, rfl⟩ := List.mem_map.mp he
    exact serves_relay env hrelay
  · simp only [List.mem_cons, List.not_mem_nil, or_false] at he
    rcases he with rfl | rfl | rfl | rfl | rfl | rfl | rfl | rfl | rfl | rfl | rfl | rfl | rfl | rfl | rfl |
      rfl | rfl
    · exact serves_levelInt env hP
    · exact serves_levelData env hP
    · exact serves_setBlockPacket env hP
    · exact serves_spawnPlayer env hP
    · exact serves_posAndOrientation env hP (hfollow (Or.inl rfl))
    · exact serves_posOffsetUpdate env hP (hfollow (Or.inr (Or.inl rfl)))
    · exact serves_posUpdate env hP (hfollow (Or.inr (Or.inr rfl)))
    · exact serves_orientationUpdate env hP
    · exact serves_playerDisconnect env hP
    · exact serves_extInfo env hP
    · exact absurd rfl hentry
    · exact serves_holdThis env
    · exact serves_extAddEntity2 env hP
    · exact serves_extRemovePlayerName env hP
    · exact serves_setBlockPermission env hP
    · exact serves_hackcontrol env hP
    · exact serves_entityProperty env

theorem serves_dispatch {id : UInt8} (hentry : id ≠ 0x11) (hrelay : ∀ bs, P serverSock (id :: bs))
    (hfollow : (id = 0x08 ∨ id = 0x09 ∨ id = 0x0a) → ∀ i, Serves P (follow i)) (l : McLocals) :
    Serves P (dispatch env id l) := by
  refine Framed.ite (serves_serverMotd env hP l) (Framed.ite (serves_levelFinal env hP l)
    (Framed.ite (serves_kick env hP) ?_))
  cases hc : (handlers env).lookup id with
  | none => exact Framed.pure _
  | some c => exact Framed.bind (serves_handler env hP (mem_of_lookup hc) hentry hrelay hfollow) fun _ => Framed.pure _

/-- **Every packet of the server.** -/
theorem turns_dispatch {id : UInt8} (hrelay : ∀ bs, P serverSock (id :: bs))
    (hfollow : (id = 0x08 ∨ id = 0x09 ∨ id = 0x0a) → ∀ i, Serves P (follow i)) (l : McLocals) :
    (dispatch env id l).Framed ServerTurn Tunnel.heeded P := by
  by_cases hentry : id = 0x11
  · rw [hentry, dispatch_of_mem (own_mem (e := (0x11, extEntry env)) (by repeat constructor))]
    exact Framed.bind (turns_extEntry env hP) fun _ => Framed.pure _
  · exact (serves_dispatch env hP hentry hrelay hfollow l).mono (fun _ _ h => h.1) (fun _ _ h => h)

end Handlers

/-- What is done for a player that is followed or plotmotioned is made up. -/
theorem made_follow (i : Int) : Serves Made (follow i) := by
  refine Framed.getState_bind (fun _ => rfl) fun t => ?_
  refine Framed.bind (Framed.onlyIf (made_tunnelTeleport _ _ _ _ _)) fun _ => Framed.onlyIf ?_
  exact Framed.bind (made_tunnelTeleport _ _ _ _ _) fun _ => made_setBlock _ _ _ _ _

theorem serves_follow (i : Int) : Serves (MadeBut serverSock) (follow i) :=
  (made_follow i).mono (fun _ _ => id) (fun _ _ hbs => hbs.but serverSock)

/-! ### Without plotmotion -/

/-- What goes to the client. -/
def ToClient (s : Socket) (_ : Bytes) : Prop := s = serverSock

section Quiet

variable {env : Env} {t : Tunnel}

/-- A player that is not plotmotioned moves, and the client is told at most. -/
theorem toClient_move {i : Int} {f : Player → Player} {cs : List Call} (hf : ∀ p, (f p).mode = p.mode)
    (h : (t.player i).mode ≠ 2) : (do
      update (fun t => t.setPlayer i f)
      packet serverSock cs
      follow i : Code Unit).Within (Standing t) ToClient := by
  refine Within.bind (Within.update (standing_setPlayer hf)) fun _ => Within.bind (Within.packet rfl) fun _ => ?_
  refine Within.getState_bind fun s hs => ?_
  refine Within.bind (Within.onlyIf fun _ => Within.packet rfl) fun _ => Within.onlyIf fun htwo => ?_
  exact absurd ((hs.2 i).symm.trans htwo) h

/-- A handler that begins with the player id. -/
theorem toClient_of_pid {k : Bytes → Code Unit} {i : Bytes}
    (hk : ∀ pid : Bytes, (t.player (byte pid).toNat).mode ≠ 2 → (k pid).Within (Standing t) ToClient)
    (h : (t.player (byte (env.fill 1 (i.take 1))).toNat).mode ≠ 2) :
    ∀ e ∈ (recvVarW env 1 >>= k).sent i t, ToClient e.1 e.2 := by
  rw [sent_recvVarW_bind]
  exact ((hk _ h).run (i.drop 1) ⟨rfl, fun _ => rfl⟩).2

/-- **The three updates** of a player that is not plotmotioned. -/
theorem toClient_update {id : UInt8} (hid : id = 0x08 ∨ id = 0x09 ∨ id = 0x0a) (l : McLocals) {i : Bytes}
    (h : (t.player (byte (env.fill 1 (i.take 1))).toNat).mode ≠ 2) :
    ∀ e ∈ (dispatch env id l).sent i t, ToClient e.1 e.2 := by
  rcases hid with rfl | rfl | rfl
  · rw [dispatch_of_mem (own_mem (e := (0x08, posAndOrientation env)) (by repeat constructor)), sent_bind_pure]
    have hposition : ∀ width coord, ∀ e ∈ (position env width coord).sent i t, ToClient e.1 e.2 := by
      intro width coord
      refine toClient_of_pid (fun pid hpid => ?_) h
      exact within_recvVarW _ fun x => within_recvVarW _ fun y => within_recvVarW _ fun z =>
        within_recvVarW _ fun yaw => within_recvVarW _ fun pitch => toClient_move (fun _ => rfl) hpid
    show ∀ e ∈ (if t.negotiated CPE.extEntityPos then _ else _ : Code Unit).sent i t, ToClient e.1 e.2
    split
    · exact hposition 4 _
    · exact hposition 2 _
  · rw [dispatch_of_mem (own_mem (e := (0x09, posOffsetUpdate env)) (by repeat constructor)), sent_bind_pure]
    refine toClient_of_pid (fun pid hpid => ?_) h
    exact within_recvVarW _ fun x => within_recvVarW _ fun y => within_recvVarW _ fun z =>
      within_recvVarW _ fun yaw => within_recvVarW _ fun pitch => toClient_move (fun _ => rfl) hpid
  · rw [dispatch_of_mem (own_mem (e := (0x0a, posUpdate env)) (by repeat constructor)), sent_bind_pure]
    refine toClient_of_pid (fun pid hpid => ?_) h
    exact within_recvVarW _ fun x => within_recvVarW _ fun y => within_recvVarW _ fun z =>
      toClient_move (fun _ => rfl) hpid

end Quiet

end Client

/-- **A round of `mcConnect`.** -/
theorem turns_mcConnect (env : Env) (l : McLocals) :
    (mcConnect env l).Framed ServerTurn Tunnel.heeded (MadeBut serverSock) := by
  have hgone : Client.disconnected.Framed ServerTurn Tunnel.heeded (MadeBut serverSock) :=
    (Client.serves_disconnected fun _ _ _ => madeBut_self _).mono (fun _ _ h => h.1) (fun _ _ => id)
  refine Framed.bind (Tame.framed serverTurn_refl (tame_recvW 1)) fun _ => Framed.ite hgone ?_
  exact Client.turns_dispatch env (fun _ _ _ => madeBut_self _) (fun _ => madeBut_self _)
    (fun _ => Client.serves_follow) l

/-- **Without plotmotion** a round of `mcConnect` writes nothing to the server. -/
theorem toClient_mcConnect {env : Env} {t : Tunnel} {input : Bytes} {l : McLocals}
    (h : ¬ Walks env t input (.mcConnect l)) : ∀ e ∈ (mcConnect env l).sent input t, e.1 = serverSock := by
  cases input with
  | nil =>
      -- the server has gone
      rw [mcConnect, sent_recvW_bind]
      exact (Client.serves_disconnected (P := Client.ToClient) fun _ _ _ => rfl).sent _ t
  | cons id i =>
      rw [mcConnect, sent_recv_id env Client.disconnected (fun id => Client.dispatch env id l)]
      by_cases hid : id = 0x08 ∨ id = 0x09 ∨ id = 0x0a
      · exact Client.toClient_update hid l (fun hmode => h ⟨hid, hmode⟩)
      · exact (Client.turns_dispatch env (P := Client.ToClient) (fun _ _ _ => rfl) (fun _ => rfl)
          (fun h => absurd h hid) l).sent i t

/-! ## The handlers of `tunnelServer` -/

/-- No login, and what goes to the client is made up. -/
def Passes (s : Socket) (bs : Bytes) : Prop := MadeBut tunnelSock s bs ∧ bs.head? ≠ some 0x00

/-- A packet with an id that is no login. -/
theorem passes_cons (id : UInt8) (hid : id ≠ 0x00) (bs : Bytes) : Passes tunnelSock (id :: bs) :=
  ⟨madeBut_self _, fun h => hid (Option.some.inj h)⟩

/-- The tunnel makes up no login. -/
theorem Made.head_ne {s : Socket} {bs : Bytes} (h : Made s bs) : bs.head? ≠ some 0x00 := by
  obtain ⟨id, hid, hhead⟩ := h
  have hall : ∀ s, (0x00 : UInt8) ∉ madeIds s := by
    intro s
    cases s with
    | tunnelSock => decide
    | serverSock => decide
  rw [hhead]
  intro hzero
  exact hall s (Option.some.inj hzero ▸ hid)

theorem made_position (bs : Bytes) : Made tunnelSock (0x08 :: bs) := ⟨0x08, by decide, rfl⟩

theorem made_message (bs : Bytes) : Made tunnelSock (0x0d :: bs) := ⟨0x0d, by decide, rfl⟩

/-- The state without what the packets of the client change, the clicks apart. -/
def Tunnel.besidesClient (t : Tunnel) : Tunnel :=
  { t with
    unused := 0
    tunnelUser := []
    loggedIn := false
    user := {}
    cpeServer := {}
    rands := 0
    cuboid := { t.cuboid with start := false } }

/-- What a packet of the client may change that is neither a click nor a command. A login stops the cuboid. -/
structure ClientTurn (t t' : Tunnel) : Prop where
  besides : t'.besidesClient = t.besidesClient
  cuboid : t'.cuboid.start = true → t.cuboid.start = true
  loggedIn : t.loggedIn = true → t'.loggedIn = true

theorem clientTurn_refl (t : Tunnel) : ClientTurn t t := ⟨rfl, id, id⟩

theorem ClientTurn.trans {a b c : Tunnel} (hab : ClientTurn a b) (hbc : ClientTurn b c) : ClientTurn a c :=
  ⟨hbc.besides.trans hab.besides, hab.cuboid ∘ hbc.cuboid, hbc.loggedIn ∘ hab.loggedIn⟩

/-- What such a packet may change that announces no extension. -/
def ClientSide (t t' : Tunnel) : Prop := ClientTurn t t' ∧ t'.cpeServer = t.cpeServer

theorem clientSide_refl (t : Tunnel) : ClientSide t t := ⟨clientTurn_refl t, rfl⟩

theorem ClientSide.trans {a b c : Tunnel} (hab : ClientSide a b) (hbc : ClientSide b c) : ClientSide a c :=
  ⟨hab.1.trans hbc.1, hbc.2.trans hab.2⟩

/-- The state without where the user is, and without the random numbers that are used up. -/
def Tunnel.besidesVoice (t : Tunnel) : Tunnel := { t with user := {}, rands := 0 }

/-- What such a packet may change that is no login, either. -/
def Voiced (t t' : Tunnel) : Prop := t'.besidesVoice = t.besidesVoice

theorem voiced_refl (t : Tunnel) : Voiced t t := rfl

theorem Voiced.trans {a b c : Tunnel} (hab : Voiced a b) (hbc : Voiced b c) : Voiced a c := Eq.trans hbc hab

theorem Voiced.side {t t' : Tunnel} (h : Voiced t t') : ClientSide t t' := by
  have hview : ∀ {α : Type} (view : Tunnel → α), view t'.besidesVoice = view t.besidesVoice :=
    fun view => congrArg view h
  have hstart : t'.cuboid.start = t.cuboid.start := hview (·.cuboid.start)
  have hlogged : t'.loggedIn = t.loggedIn := hview (·.loggedIn)
  refine ⟨⟨hview Tunnel.besidesClient, fun hstarted => ?_, fun hin => ?_⟩, hview (·.cpeServer)⟩
  · exact hstart.symm.trans hstarted
  · exact hlogged.trans hin

namespace Server

variable (env : Env)

/-- A handler of `tunnelServer` that writes what is in `P`. -/
abbrev Listens {α : Type} (P : Socket → Bytes → Prop) (c : Code α) : Prop := c.Framed Voiced Tunnel.heeded P

variable {P : Socket → Bytes → Prop}

theorem Listens.side {α : Type} {c : Code α} (h : Listens P c) : c.Framed ClientSide Tunnel.heeded P :=
  h.mono (fun _ _ => Voiced.side) (fun _ _ => id)

theorem listens_recvVarW {α : Type} {n : Nat} {f : Bytes → Code α} (h : ∀ v, Listens P (f v)) :
    Listens P (recvVarW env n >>= f) := framed_recvVarW voiced_refl env h

theorem listens_packet {id : UInt8} (hid : ∀ bs, P tunnelSock (id :: bs)) (cs : List Call) :
    Listens P (packet tunnelSock (Call.sendW [id] :: cs) : Code Unit) := Framed.packet (hid _)

/-! ### The login, the position and the chat -/

/-- A login stops the cuboid. -/
theorem turns_login : (login env).Framed ClientSide Tunnel.heeded P := by
  refine framed_recvVarW clientSide_refl _ fun _ => framed_recvVarW clientSide_refl _ fun name =>
    framed_recvVarW clientSide_refl _ fun _ => ?_
  refine Framed.bind (Tame.framed clientSide_refl (tame_recvW 1)) fun r => ?_
  refine Framed.bind (Framed.update (fun _ => ?_) (fun _ => rfl)) fun _ => Framed.pure _
  exact ⟨⟨rfl, fun hstart => absurd hstart Bool.false_ne_true, fun _ => rfl⟩, rfl⟩

/-- A hidden position is one that nobody heeds. -/
theorem listens_posUpdate (h08 : ∀ bs, P tunnelSock (0x08 :: bs)) : Listens P (posUpdate env) := by
  refine listens_recvVarW _ fun pid => listens_recvVarW _ fun x => listens_recvVarW _ fun y =>
    listens_recvVarW _ fun z => listens_recvVarW _ fun yaw => listens_recvVarW _ fun pitch => ?_
  refine Framed.getState_bind (fun _ => rfl) fun t =>
    Framed.ite ?_ (Framed.update (fun _ => rfl) (fun _ => rfl))
  exact Framed.bind (Framed.update (fun _ => rfl) (fun _ => rfl)) fun _ => listens_packet h08 _

section Chat

variable (h0d : ∀ bs, P tunnelSock (0x0d :: bs))
include h0d

theorem listens_sendMessage (what : UInt8) (message : Bytes) : Listens P (sendMessage what message) :=
  listens_packet h0d _

theorem listens_gimpMessage (what : UInt8) : Listens P (gimpMessage env what) := by
  refine Framed.bind (Framed.getState_bind (fun _ => rfl) fun t => ?_) fun r => ?_
  · exact Framed.bind (Framed.update (fun _ => rfl) (fun _ => rfl)) fun _ => Framed.pure _
  · refine Framed.getState_bind (fun _ => rfl) fun t => Framed.ite Framed.exit ?_
    exact Framed.ite (Framed.forEach (fun _ => listens_sendMessage h0d _ _) _) (listens_sendMessage h0d _ _)

/-- A message that is no command. -/
theorem listens_said {what message : Bytes} (h : isCommand env message = false) :
    Listens P (said env what message) := by
  unfold said
  rw [if_neg (ne_true_of_eq_false h)]
  exact Framed.getState_bind (fun _ => rfl) fun t =>
    Framed.ite (Framed.onlyIf (listens_gimpMessage env h0d _)) (listens_sendMessage h0d _ _)

end Chat

/-! ### The packets of extensions -/

section Passed

variable (hP : ∀ id ≠ 0x00, ∀ bs, P tunnelSock (id :: bs))
include hP

theorem listens_relay {r : Relay} (hr : r ∈ relays) : Listens P (relay env tunnelSock r) := by
  have hall : ∀ r ∈ relays, r.id ≠ 0x00 := by decide
  exact Tame.framed voiced_refl (tame_relay env fun _ bs => hP r.id (hall r hr) _)

theorem listens_extInfo : Listens P (extInfo env) :=
  listens_recvVarW _ fun _ => listens_recvVarW _ fun _ => listens_packet (hP _ (by decide)) _

/-- Only an entry announces an extension. -/
theorem turns_extEntry : (extEntry env).Framed ClientTurn Tunnel.heeded P := by
  refine framed_recvVarW clientTurn_refl _ fun extname => framed_recvVarW clientTurn_refl _ fun version => ?_
  refine Framed.bind (Framed.update (fun _ => ⟨rfl, id, id⟩) (fun _ => rfl)) fun _ => Framed.packet ?_
  exact hP _ (by decide) _

theorem listens_textHotKey : Listens P (textHotKey env) :=
  listens_recvVarW _ fun _ => listens_recvVarW _ fun _ => listens_recvVarW _ fun _ =>
    listens_recvVarW _ fun _ => listens_packet (hP _ (by decide)) _

theorem listens_extAddEntity2 : Listens P (extAddEntity2 env) := by
  refine Tame.framed voiced_refl ?_
  refine tame_recvVar _ fun _ _ => tame_recvVarW _ fun _ _ => tame_recvVarW _ fun _ _ =>
    tame_recvVarW _ fun _ _ => tame_recvVarW _ fun _ _ => tame_recvVarW _ fun _ _ =>
    tame_recvVar _ fun _ _ => tame_recvVar _ fun _ _ => Tame.packet ?_
  exact hP _ (by decide) _

theorem listens_twoWayPing : Listens P (twoWayPing env) :=
  listens_recvVarW _ fun _ => listens_recvVarW _ fun _ => listens_packet (hP _ (by decide)) _

/-- **The handlers of `tunnelServer`**, but for the clicks and the chat. -/
theorem listens_handler {e : UInt8 × Code Unit} (he : e ∈ handlers env)
    (hid : e.1 ≠ 0x05 ∧ e.1 ≠ 0x0d ∧ e.1 ≠ 0x11) : Listens P e.2 := by
  rcases List.mem_append.mp he with he | he
  · obtain ⟨r, hr, rfl⟩ := List.mem_map.mp he
    exact listens_relay env hP hr
  · simp only [List.mem_cons, List.not_mem_nil, or_false] at he
    rcases he with rfl | rfl | rfl | rfl | rfl | rfl | rfl | rfl
    · exact absurd rfl hid.1
    · exact listens_posUpdate env (hP _ (by decide))
    · exact absurd rfl hid.2.1
    · exact listens_extInfo env hP
    · exact absurd rfl hid.2.2
    · exact listens_textHotKey env hP
    · exact listens_extAddEntity2 env hP
    · exact listens_twoWayPing env hP

theorem listens_dispatch {id : UInt8} (hid : id ≠ 0x05 ∧ id ≠ 0x0d ∧ id ≠ 0x11) {l : ServerLocals}
    (hlogin : ¬ (id = 0x00 ∧ l.fucked = false)) : Listens P (dispatch env id l) := by
  unfold dispatch
  rw [if_neg hlogin]
  cases hc : (handlers env).lookup id with
  | none => exact Framed.pure _
  | some c => exact Framed.bind (listens_handler env hP (mem_of_lookup hc) hid) fun _ => Framed.pure _

theorem sides_dispatch {id : UInt8} (hid : id ≠ 0x05 ∧ id ≠ 0x0d ∧ id ≠ 0x11) (l : ServerLocals) :
    (dispatch env id l).Framed ClientSide Tunnel.heeded P := by
  by_cases hlogin : id = 0x00 ∧ l.fucked = false
  · unfold dispatch
    rw [if_pos hlogin]
    exact turns_login env
  · exact (listens_dispatch env hP hid hlogin).side

/-- **Every packet of the client**, but for the clicks and the chat. -/
theorem turns_dispatch {id : UInt8} (hid : id ≠ 0x05 ∧ id ≠ 0x0d) (l : ServerLocals) :
    (dispatch env id l).Framed ClientTurn Tunnel.heeded P := by
  by_cases hentry : id = 0x11
  · rw [hentry, dispatch_of_mem (own_mem (e := (0x11, extEntry env)) (by repeat constructor))]
    exact Framed.bind (turns_extEntry env hP) fun _ => Framed.pure _
  · exact (sides_dispatch env hP ⟨hid.1, hid.2, hentry⟩ l).mono (fun _ _ h => h.1) (fun _ _ h => h)

end Passed

/-! ### A click -/

theorem heeds_cuboidPoint (x y z : UInt16) (blocktype : UInt8) : Heeds (cuboidPoint x y z blocktype) := by
  refine Framed.getState_bind (fun _ => rfl) fun t =>
    Framed.ite (Framed.ite ?_ (Framed.ite ?_ (Framed.pure _))) (Framed.pure _)
  · exact Framed.bind (heeds_update (fun _ => rfl)) fun _ => made_tunnelMsg _
  · exact Framed.bind (heeds_update (fun _ => rfl)) fun _ => made_tunnelMsg _

theorem heeds_pastePoint (x y z : UInt16) : Heeds (pastePoint x y z) := by
  refine Framed.getState_bind (fun _ => rfl) fun t => Framed.ite ?_ (Framed.pure _)
  exact Framed.bind (heeds_update (fun _ => rfl)) fun _ =>
    Framed.bind (made_tunnelMsg _) fun _ => heeds_update (fun _ => rfl)

theorem heeds_copyPoint (x y z : UInt16) : Heeds (copyPoint x y z) := by
  refine Framed.getState_bind (fun _ => rfl) fun t =>
    Framed.ite (Framed.ite ?_ (Framed.ite ?_ (Framed.pure _))) (Framed.pure _)
  · exact Framed.bind (heeds_update (fun _ => rfl)) fun _ => made_tunnelMsg _
  · exact Framed.bind (heeds_update (fun _ => rfl)) fun _ => made_tunnelMsg _

theorem heeds_revert (x y z : Bytes) : Heeds (revert x y z) :=
  Framed.getState_bind (fun _ => rfl) fun _ => made_tunnelSetBlock _ _ _ _

theorem heeds_point (x y z : Bytes) (blocktype : UInt8) : Heeds (point x y z blocktype) := by
  refine Framed.bind (heeds_cuboidPoint _ _ _ _) fun _ => Framed.bind (heeds_pastePoint _ _ _) fun _ =>
    Framed.bind (heeds_copyPoint _ _ _) fun _ => ?_
  exact Framed.bind (heeds_revert x y z) fun _ => Framed.bind (heeds_revert x y z) fun _ => heeds_revert x y z

theorem heeds_setBlockClick : Heeds (setBlockClick env) := by
  refine framed_recvVarW (fun _ => trivial) _ fun x => framed_recvVarW (fun _ => trivial) _ fun y =>
    framed_recvVarW (fun _ => trivial) _ fun z => framed_recvVarW (fun _ => trivial) _ fun mode =>
    framed_recvVarW (fun _ => trivial) _ fun blocktype => ?_
  refine Framed.getState_bind (fun _ => rfl) fun t => Framed.ite (heeds_point x y z _) ?_
  exact Framed.packet ⟨0x05, by decide, rfl⟩

/-- **The state after a click**, whatever arrives for it. -/
theorem clicked_eq (i : Bytes) (t : Tunnel) : ∃ p blocktype,
    ((setBlockClick env).run i t).state = if t.zPlace then pointed p blocktype t else t := by
  unfold setBlockClick
  simp only [run_recvVarW_bind]
  generalize env.fill 2 (i.take 2) = x
  generalize (env.var 1).fill 2 ((i.drop 2).take 2) = y
  generalize (env.var 2).fill 2 (((i.drop 2).drop 2).take 2) = z
  generalize (env.var 3).fill 1 ((((i.drop 2).drop 2).drop 2).take 1) = mode
  generalize (env.var 4).fill 1 (((((i.drop 2).drop 2).drop 2).drop 1).take 1) = block
  generalize ((((i.drop 2).drop 2).drop 2).drop 1).drop 1 = rest
  refine ⟨(host x, host y, host z), byte block, ?_⟩
  rw [run_getState_bind]
  by_cases hz : t.zPlace = true
  · rw [if_pos hz, if_pos hz]
    obtain ⟨out, hpoint⟩ := takes_point (byte block) t x y z
    have hrun := hpoint rest
    rw [List.nil_append] at hrun
    rw [hrun]
  · rw [if_neg hz, if_neg hz]
    rfl

end Server

end LavaTunnel
