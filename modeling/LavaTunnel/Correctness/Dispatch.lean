import LavaTunnel.Correctness.ClientHandlers
import LavaTunnel.Correctness.Handlers
import LavaTunnel.Correctness.ServerHandlers

/-!
# `LavaTunnel.Correctness.Dispatch` — what a complete packet does

The lemmas of the handlers, put together for each of the two loops: the round of a complete packet takes just
the packet. For `mcConnect` the modes decide which packets are complete, so what a packet announces is kept
track of, and so is what it does to the level.
-/

namespace LavaTunnel

open Wire Wire.Prog

namespace Client

/-! ## What a packet of the server takes, in every mode -/

/-- What a packet announces. -/
def announced (env : Env) (p : Packet) (cpe : CPE) : CPE :=
  if p.1 = 0x11 then announce env (field p.2 0 64) cpe else cpe

/-- The modes of two sides. -/
def negotiatedModes (client server : CPE) : Modes :=
  ⟨client.fastMap && server.fastMap, client.extEntityPos && server.extEntityPos⟩

/-- Complete packets of the server, each in the modes that the earlier ones have negotiated. -/
def Complete (env : Env) (server : CPE) : CPE → List Packet → Prop
  | _, [] => True
  | client, p :: ps => FromServer (negotiatedModes client server) p ∧ Complete env server (announced env p client) ps

/-- What the tunnel keeps of the level: the pieces that have arrived, the size, and the blocks. -/
structure Level where
  mapC : Bytes
  map : Int → UInt8
  mapAlloc : Nat
  lvlx : UInt16
  lvly : UInt16
  lvlz : UInt16

/-- The level of the tunnel. -/
def level (t : Tunnel) : Level := ⟨t.mapC, t.map, t.mapAlloc, t.lvlx, t.lvly, t.lvlz⟩

/-- A tunnel with that level, and nothing else. -/
def Level.tunnel (v : Level) : Tunnel :=
  { mapC := v.mapC, map := v.map, mapAlloc := v.mapAlloc, lvlx := v.lvlx, lvly := v.lvly, lvlz := v.lvlz }

/-- What the tunnel makes of a packet of the server for its level. -/
def Level.receive (env : Env) (v : Level) (p : Packet) : Level :=
  if p.1 = 0x03 then { v with mapC := v.mapC ++ field p.2 2 (chunkLength p.2).toNat }
  else if p.1 = 0x04 then level (inflated env (resized p.2 v.tunnel))
  else if p.1 = 0x06 then
    { v with map := Function.update v.map (calculateOffset v.tunnel (host (field p.2 0 2)).toInt16
        (host (field p.2 2 2)).toInt16 (host (field p.2 4 2)).toInt16) (byte (field p.2 6 1)) }
  else v

/-- The coordinates of a position packet are two bytes wide or, after negotiation, four. -/
def positioned (payload : Bytes) (t : Tunnel) : Tunnel :=
  placed payload (if t.modes.wide then 4 else 2) (if t.modes.wide then fun _ => ntohs 69 else host) t

/-- The record of an entity; yaw and pitch stand behind the coordinates. -/
def entityAdded (env : Env) (payload : Bytes) (t : Tunnel) : Tunnel :=
  let offset := if t.modes.wide then 141 else 135
  addEntity env (field payload 0 1) (field payload 65 64) (field payload offset 1)
    (field payload (offset + 1) 1) t

/-- What the packets that are not just passed on do to the state. -/
def effects (env : Env) (payload : Bytes) : List (UInt8 × (Tunnel → Tunnel)) :=
  [(0x00, fun t => { t with
      motd := strncpy64 (field payload 65 64), servername := strncpy64 (field payload 1 64) }),
    (0x03, fun t => { t with
      mapSize := int32 (t.mapSize + chunkLength payload)
      mapC := t.mapC ++ field payload 2 (chunkLength payload).toNat }),
    (0x04, fun t => inflated env (resized payload t)),
    (0x06, fun t => { t with map := Function.update t.map (calculateOffset t (host (field payload 0 2)).toInt16
      (host (field payload 2 2)).toInt16 (host (field payload 4 2)).toInt16) (byte (field payload 6 1)) }),
    (0x07, spawned env payload), (0x08, positioned payload), (0x09, fun t => turned payload 4 (stepped payload t)),
    (0x0a, stepped payload), (0x0b, turned payload 1),
    (0x0c, fun t => t.setPlayer (byte (field payload 0 1)).toNat (fun p => { p with valid := false, mode := 0 })),
    (0x0e, fun t => { t with cuboid := { t.cuboid with halt := true } }),
    (0x11, fun t => { t with cpeClient := announce env (field payload 0 64) t.cpeClient }),
    (0x18, fun t => t.setPlayer (byte (field payload 0 2)).toInt8.toInt (fun p => { p with valid := false })),
    (0x21, entityAdded env payload)]

/-- The state after a packet of the server. -/
def received (env : Env) (p : Packet) (t : Tunnel) : Tunnel := (((effects env p.2).lookup p.1).getD id) t

/-- The ids of the packets that have an effect. -/
def effectIds : List UInt8 :=
  [0x00, 0x03, 0x04, 0x06, 0x07, 0x08, 0x09, 0x0a, 0x0b, 0x0c, 0x0e, 0x11, 0x18, 0x21]

theorem ids_effects (env : Env) (payload : Bytes) : (effects env payload).map Prod.fst = effectIds := rfl

/-- **What a packet can do**: nothing, or the effect in the table. -/
theorem received_cases (env : Env) (p : Packet) (t : Tunnel) :
    p.1 ∉ effectIds ∧ received env p t = t ∨
      ∃ f, (p.1, f) ∈ effects env p.2 ∧ received env p t = f t := by
  unfold received
  cases hlookup : (effects env p.2).lookup p.1 with
  | none =>
      refine Or.inl ⟨fun hid => ?_, rfl⟩
      rw [← ids_effects env p.2] at hid
      obtain ⟨e, he, heq⟩ := List.mem_map.mp hid
      exact absurd (List.lookup_eq_none_iff.mp hlookup e he) (by simp [heq])
  | some f => exact Or.inr ⟨f, mem_of_lookup hlookup, rfl⟩

/-- A packet without an effect. -/
theorem received_of_notMem {env : Env} {p : Packet} (h : p.1 ∉ effectIds) (t : Tunnel) : received env p t = t := by
  rcases received_cases env p t with ⟨-, ht⟩ | ⟨f, hf, -⟩
  · exact ht
  · have hid : p.1 ∈ (effects env p.2).map Prod.fst := List.mem_map_of_mem hf
    exact absurd hid h

/-- What a packet of the server announces, and what it does to the level. -/
theorem received_frame (env : Env) (p : Packet) (t : Tunnel) :
    (received env p t).cpeClient = announced env p t.cpeClient ∧
      (received env p t).cpeServer = t.cpeServer ∧ level (received env p t) = (level t).receive env p := by
  rcases received_cases env p t with ⟨hid, ht⟩ | ⟨f, hf, ht⟩
  · have h3 : p.1 ≠ 0x03 := fun h => hid (h ▸ by decide)
    have h4 : p.1 ≠ 0x04 := fun h => hid (h ▸ by decide)
    have h6 : p.1 ≠ 0x06 := fun h => hid (h ▸ by decide)
    have h11 : p.1 ≠ 0x11 := fun h => hid (h ▸ by decide)
    rw [ht, announced, Level.receive, if_neg h3, if_neg h4, if_neg h6, if_neg h11]
    exact ⟨rfl, rfl, rfl⟩
  · obtain ⟨id, payload⟩ := p
    simp only [effects, List.mem_cons, Prod.mk.injEq, List.not_mem_nil, or_false] at hf
    rw [ht]
    rcases hf with ⟨rfl, rfl⟩ | ⟨rfl, rfl⟩ | ⟨rfl, rfl⟩ | ⟨rfl, rfl⟩ | ⟨rfl, rfl⟩ | ⟨rfl, rfl⟩ | ⟨rfl, rfl⟩ |
      ⟨rfl, rfl⟩ | ⟨rfl, rfl⟩ | ⟨rfl, rfl⟩ | ⟨rfl, rfl⟩ | ⟨rfl, rfl⟩ | ⟨rfl, rfl⟩ | ⟨rfl, rfl⟩ <;>
    exact ⟨rfl, rfl, rfl⟩

/-- The round of a packet takes the payload, and ends the program only if it is a kick. -/
def TakesPacket (env : Env) (id : UInt8) (payload : Bytes) (l : McLocals) (t : Tunnel) : Prop :=
  ∃ r t' out, (dispatch env id l).Takes payload t r t' out ∧ (r = none ↔ id = 0x0e) ∧
    t'.cpeClient = announced env (id, payload) t.cpeClient ∧ t'.cpeServer = t.cpeServer ∧
    level t' = (level t).receive env (id, payload)

/-- The round of a packet takes the payload and leaves this state. -/
def Receives (env : Env) (id : UInt8) (payload : Bytes) (l : McLocals) (t : Tunnel) : Prop :=
  ∃ r out, (dispatch env id l).Takes payload t r (received env (id, payload) t) out ∧ (r = none ↔ id = 0x0e)

variable {env : Env} {id : UInt8} {payload : Bytes} {t : Tunnel}

/-- A handler takes the payload, and the locals stay. -/
theorem takes_dispatch {c : Code Unit} (hc : (id, c) ∈ handlers env) (l : McLocals) {t' : Tunnel}
    {out : List (Socket × Bytes)} (htakes : c.Takes payload t (some ()) t' out) :
    (dispatch env id l).Takes payload t (some l) t' out := by
  rw [dispatch_of_mem hc]
  have h := htakes.then (f := fun _ => pure l) (Takes.pure l)
  rwa [List.append_nil] at h

theorem receives_of_handler {c : Code Unit} (hc : (id, c) ∈ handlers env) (l : McLocals) {t' : Tunnel}
    {out : List (Socket × Bytes)} (htakes : c.Takes payload t (some ()) t' out) (he : id ≠ 0x0e)
    (ht' : received env (id, payload) t = t') : Receives env id payload l t := by
  subst ht'
  exact ⟨some l, out, takes_dispatch hc l htakes, by simp [he]⟩

/-- **Every complete packet of the server is taken.** -/
theorem receives (env : Env) (t : Tunnel) (l : McLocals) (hz : id = 0x04 → env.zlib.EndDocumented)
    (hp : FromServer (negotiatedModes t.cpeClient t.cpeServer) (id, payload)) : Receives env id payload l t := by
  by_cases h3 : id = 0x03
  · subst h3
    have hchunk : LevelChunk payload := by simpa [FromServer] using hp
    obtain ⟨out, htakes, -⟩ := takes_levelData env t hchunk
    exact receives_of_handler (own_mem (by repeat constructor)) l htakes (by decide) rfl
  have hmem : (id, payload.length) ∈ serverPackets (negotiatedModes t.cpeClient t.cpeServer) := by
    simpa [FromServer, h3] using hp
  rcases mem_serverPackets hmem with ⟨r, hr, rfl, hwidth⟩ | hspecial
  · -- no relay has an id that `received` looks at
    obtain ⟨out, htakes, -⟩ := takes_relay env serverSock r hwidth.symm t
    have hne : ∀ r ∈ relays, r.id ∉ effectIds := by decide
    have he : r.id ≠ 0x0e := fun h => hne r hr (h ▸ by decide)
    exact receives_of_handler (relay_mem env hr) l htakes he (received_of_notMem (hne r hr) t)
  simp only [specials, List.mem_cons, Prod.mk.injEq, List.not_mem_nil, or_false] at hspecial
  -- one case a handler, in the order of `Client.specials`
  rcases hspecial with ⟨rfl, h⟩ | ⟨rfl, h⟩ | ⟨rfl, h⟩ | ⟨rfl, h⟩ | ⟨rfl, h⟩ | ⟨rfl, h⟩ | ⟨rfl, h⟩ |
    ⟨rfl, h⟩ | ⟨rfl, h⟩ | ⟨rfl, h⟩ | ⟨rfl, h⟩ | ⟨rfl, h⟩ | ⟨rfl, h⟩ | ⟨rfl, h⟩ | ⟨rfl, h⟩ | ⟨rfl, h⟩ |
    ⟨rfl, h⟩ | ⟨rfl, h⟩ | ⟨rfl, h⟩
  · exact ⟨_, _, takes_serverMotd env t l h, by simp⟩
  · obtain ⟨out, htakes, -⟩ := takes_levelInt env t h
    exact receives_of_handler (own_mem (by repeat constructor)) l htakes (by decide) rfl
  · exact ⟨_, _, takes_levelFinal env t l h (not_zlibError env (hz rfl) _), by simp⟩
  · exact receives_of_handler (own_mem (by repeat constructor)) l (takes_setBlockPacket env t h) (by decide) rfl
  · exact receives_of_handler (own_mem (by repeat constructor)) l (takes_spawnPlayer env t h) (by decide) rfl
  · -- the coordinates have four bytes in the wide mode
    cases hwide : t.negotiated CPE.extEntityPos with
    | true =>
        obtain ⟨out, htakes, -⟩ := takes_posAndOrientation env t 4 (if_pos hwide)
          (h.trans (if_pos hwide))
        refine receives_of_handler (own_mem (by repeat constructor)) l htakes (by decide) ?_
        show positioned payload t = _
        rw [positioned, if_pos (show t.modes.wide = true from hwide), if_pos (show t.modes.wide = true from hwide)]
    | false =>
        obtain ⟨out, htakes, -⟩ := takes_posAndOrientation env t 2 (if_neg (by simp [hwide]))
          (h.trans (if_neg (Bool.eq_false_iff.mp hwide)))
        refine receives_of_handler (own_mem (by repeat constructor)) l htakes (by decide) ?_
        have hnot : ¬ t.modes.wide = true := Bool.eq_false_iff.mp hwide
        show positioned payload t = _
        rw [positioned, if_neg hnot, if_neg hnot]
  · obtain ⟨out, htakes, -⟩ := takes_posOffsetUpdate env t h
    exact receives_of_handler (own_mem (by repeat constructor)) l htakes (by decide) rfl
  · obtain ⟨out, htakes, -⟩ := takes_posUpdate env t h
    exact receives_of_handler (own_mem (by repeat constructor)) l htakes (by decide) rfl
  · exact receives_of_handler (own_mem (by repeat constructor)) l (takes_orientationUpdate env t h) (by decide) rfl
  · exact receives_of_handler (own_mem (by repeat constructor)) l (takes_playerDisconnect env t h) (by decide) rfl
  · exact ⟨none, _, takes_kick env t h, by simp⟩
  · exact receives_of_handler (own_mem (by repeat constructor)) l (takes_extInfo env t h) (by decide) rfl
  · exact receives_of_handler (own_mem (by repeat constructor)) l (takes_extEntry env t h) (by decide) rfl
  · exact receives_of_handler (own_mem (by repeat constructor)) l (takes_holdThis env t h) (by decide) rfl
  · exact receives_of_handler (own_mem (by repeat constructor)) l (takes_extRemovePlayerName env t h) (by decide)
      rfl
  · exact receives_of_handler (own_mem (by repeat constructor)) l (takes_setBlockPermission env t h) (by decide)
      rfl
  · exact receives_of_handler (own_mem (by repeat constructor)) l (takes_hackcontrol env t h) (by decide) rfl
  · cases hwide : t.negotiated CPE.extEntityPos with
    | true =>
        refine receives_of_handler (own_mem (by repeat constructor)) l
          (takes_extAddEntity2_wide env t hwide (h.trans (if_pos hwide))) (by decide) ?_
        show entityAdded env payload t = _
        rw [entityAdded, if_pos (show t.modes.wide = true from hwide)]
    | false =>
        refine receives_of_handler (own_mem (by repeat constructor)) l
          (takes_extAddEntity2 env t hwide (h.trans (if_neg (Bool.eq_false_iff.mp hwide)))) (by decide) ?_
        show entityAdded env payload t = _
        rw [entityAdded, if_neg (show ¬ t.modes.wide = true from Bool.eq_false_iff.mp hwide)]
  · exact receives_of_handler (own_mem (by repeat constructor)) l (takes_entityProperty env t h) (by decide) rfl

/-- What the packet announces, and what it does to the level. -/
theorem takesPacket (env : Env) (hz : env.zlib.EndDocumented) (t : Tunnel) (l : McLocals)
    (hp : FromServer (negotiatedModes t.cpeClient t.cpeServer) (id, payload)) : TakesPacket env id payload l t := by
  obtain ⟨r, out, htakes, hends⟩ := receives env t l (fun _ => hz) hp
  exact ⟨r, received env (id, payload) t, out, htakes, hends, received_frame env (id, payload) t⟩

end Client

namespace Server

/-! ## Clicks, gimped messages and commands -/

theorem isCommand_point (x y z : Bytes) (blocktype : UInt8) : IsCommand (point x y z blocktype) :=
  Spoken.isCommand (told_point x y z blocktype) (fun _ _ h => h.1)

theorem isCommand_sendGimp (t : Tunnel) (slot : Nat) (what : UInt8) : IsCommand (sendGimp t slot what) :=
  Local.ite (Local.forEach (fun _ => local_sendMessage _ _) _) (local_sendMessage _ _)

theorem isCommand_chatCommand (env : Env) (command : Bytes) : IsCommand (chatCommand env command) :=
  Spoken.isCommand (spoken_chatCommand env command) (fun _ _ => id)

/-! ## What a packet of the client takes -/

/-- Complete packets of the client. A second login is not for any handler. -/
def Complete : Bool → List Packet → Prop
  | _, [] => True
  | fucked, p :: ps => FromClient p ∧ (p.1 = 0x00 → fucked = false) ∧ Complete (fucked || p.1 == 0x00) ps

/-- The round of a packet takes the payload, and ends the program only on a gimped message without a choice
    of texts. -/
def TakesPacket (env : Env) (id : UInt8) (payload : Bytes) (l : ServerLocals) (t : Tunnel) : Prop :=
  ∃ r t' out, (dispatch env id l).Takes payload t r t' out ∧
    (∀ l', r = some l' → l'.fucked = (l.fucked || id == 0x00)) ∧
    (t.gimpN ≠ 1 → r ≠ none ∧ t'.gimpN ≠ 1)

variable {env : Env} {id : UInt8} {payload : Bytes} {t : Tunnel}

theorem takesPacket_of_handler {c : Code Unit} (hc : (id, c) ∈ handlers env) (l : ServerLocals)
    {r : Option Unit} {t' : Tunnel} {out : List (Socket × Bytes)} (htakes : c.Takes payload t r t' out)
    (h0 : id ≠ 0x00) (hgimp : t.gimpN ≠ 1 → r ≠ none ∧ t'.gimpN ≠ 1) : TakesPacket env id payload l t := by
  refine ⟨r.map (fun _ => l), t', out, ?_, ?_, by simpa using hgimp⟩
  · rw [dispatch_of_mem hc]
    cases r with
    | none => exact htakes.bind_none
    | some _ =>
        have h := htakes.then (f := fun _ => pure l) (Takes.pure l)
        rwa [List.append_nil] at h
  · intro l' hl'
    obtain ⟨_, _, rfl⟩ := Option.map_eq_some_iff.mp hl'
    simp [h0]

/-- What a command does, it does without the stream, and the number of gimp texts stays. -/
theorem takes_isCommand {α : Type} {c : Code α} (hc : IsCommand c) (t : Tunnel) :
    ∃ a t' out, c.Takes [] t (some a) t' out ∧ t'.gimpN = t.gimpN := by
  obtain ⟨a, t', out, htakes, hkept⟩ := hc.takes t
  exact ⟨a, t', out, htakes, congrArg (fun k => k.2.2.2.2.2.2.2) hkept⟩

theorem takes_gimpMessage (env : Env) (what : UInt8) (t : Tunnel) :
    ∃ r t' out, (gimpMessage env what).Takes [] t r t' out ∧ (t.gimpN ≠ 1 → r ≠ none ∧ t'.gimpN ≠ 1) := by
  obtain ⟨r, t₁, out₁, hrand, h₁⟩ := takes_isCommand (isCommand_rand env) t
  let send := sendGimp t₁ (256 * ((r : Int).tmod (t₁.gimpN - 1) + 1).toNat) what
  by_cases hone : t₁.gimpN = 1
  · have hexit : (if t₁.gimpN = 1 then Prog.exit else send).Takes [] t₁ none t₁ [] := by
      rw [if_pos hone]
      exact fun _ => rfl
    exact ⟨none, t₁, _, hrand.then (Takes.getState_bind hexit), fun hne => absurd (h₁ ▸ hone) hne⟩
  · obtain ⟨a, t₂, out₂, hsend, h₂⟩ := takes_isCommand (c := send) (isCommand_sendGimp _ _ _) t₁
    have htail : (if t₁.gimpN = 1 then Prog.exit else send).Takes [] t₁ (some a) t₂ out₂ := by
      rw [if_neg hone]
      exact hsend
    exact ⟨some a, t₂, _, hrand.then (Takes.getState_bind htail), fun _ => ⟨by simp, h₂ ▸ hone⟩⟩

/-- A chat message is a command, a gimped message, or sent on. -/
theorem takes_chat (env : Env) (t : Tunnel) (h : payload.length = 65) :
    ∃ r t' out, (chatMessage env).Takes payload t r t' out ∧ (t.gimpN ≠ 1 → r ≠ none ∧ t'.gimpN ≠ 1) := by
  -- a command, a gimped message, or a message that is passed on
  by_cases hcommand : isCommand env (field payload 1 64) = true
  · obtain ⟨a, t', out, htakes, ht'⟩ := takes_isCommand
      (isCommand_chatCommand env ((cleanMessage env (field payload 1 64)).drop 1)) t
    refine ⟨some a, t', out, takes_chatMessage_tail env t h ?_, fun hne => ⟨by simp, ht' ▸ hne⟩⟩
    rw [if_pos hcommand]
    exact htakes
  by_cases hgimped : t.gimped = true ∧ byte (field payload 1 64) ≠ 47
  · by_cases hwhat : byte (field payload 0 1) = 0
    · obtain ⟨r, t', out, htakes, ht'⟩ := takes_gimpMessage env (byte (field payload 0 1)) t
      refine ⟨r, t', out, takes_chatMessage_tail env t h ?_, ht'⟩
      rw [if_neg hcommand]
      refine Takes.getState_bind ?_
      rw [if_pos hgimped, onlyIf_pos hwhat]
      exact htakes
    · refine ⟨some (), t, [], takes_chatMessage_tail env t h ?_, fun hne => ⟨by simp, hne⟩⟩
      rw [if_neg hcommand]
      refine Takes.getState_bind ?_
      rw [if_pos hgimped, onlyIf_neg hwhat]
      exact Takes.pure ()
  · obtain ⟨a, t', out, htakes, ht'⟩ := takes_isCommand
      (local_sendMessage (byte (field payload 0 1)) (field payload 1 64)) t
    refine ⟨some a, t', out, takes_chatMessage_tail env t h ?_, fun hne => ⟨by simp, ht' ▸ hne⟩⟩
    rw [if_neg hcommand]
    refine Takes.getState_bind ?_
    rw [if_neg hgimped]
    exact htakes

/-- **Every complete packet of the client is taken.** -/
theorem takesPacket (env : Env) (t : Tunnel) {l : ServerLocals} (hp : FromClient (id, payload))
    (hlogin : id = 0x00 → l.fucked = false) :
    TakesPacket env id payload l t := by
  rcases mem_clientPackets hp with ⟨r, hr, rfl, hwidth⟩ | hspecial
  · obtain ⟨out, htakes, -⟩ := takes_relay env tunnelSock r hwidth.symm t
    have hne : ∀ r ∈ relays, r.id ≠ 0x00 := by decide
    exact takesPacket_of_handler (relay_mem env hr) l htakes (hne r hr) (fun hgimp => ⟨by simp, hgimp⟩)
  simp only [specials, List.mem_cons, Prod.mk.injEq, List.not_mem_nil, or_false] at hspecial
  -- one case a handler, in the order of `Server.specials`
  rcases hspecial with ⟨rfl, h⟩ | ⟨rfl, h⟩ | ⟨rfl, h⟩ | ⟨rfl, h⟩ | ⟨rfl, h⟩ | ⟨rfl, h⟩ | ⟨rfl, h⟩ |
    ⟨rfl, h⟩ | ⟨rfl, h⟩
  · have htakes := takes_login env t h
    rw [← dispatch_login env (hlogin rfl)] at htakes
    refine ⟨_, _, _, htakes, fun l' hl' => ?_, fun hgimp => ⟨by simp, hgimp⟩⟩
    obtain rfl := Option.some.inj hl'
    simp
  · by_cases hz : t.zPlace = true
    · obtain ⟨a, t', out, hpoint, ht'⟩ := takes_isCommand (isCommand_point (field payload 0 2)
        (field payload 2 2) (field payload 4 2) (byte (field payload 7 1))) t
      exact takesPacket_of_handler (own_mem (by repeat constructor)) l
        (takes_setBlockClick_point env t hz h hpoint) (by decide) (fun hne => ⟨by simp, ht' ▸ hne⟩)
    · exact takesPacket_of_handler (own_mem (by repeat constructor)) l
        (takes_setBlockClick env t (Bool.eq_false_iff.mpr hz) h) (by decide) (fun hne => ⟨by simp, hne⟩)
  · cases hh : t.hide with
    | true =>
        exact takesPacket_of_handler (own_mem (by repeat constructor)) l (takes_posUpdate_hidden env t hh h)
          (by decide) (fun hne => ⟨by simp, hne⟩)
    | false =>
        exact takesPacket_of_handler (own_mem (by repeat constructor)) l (takes_posUpdate env t hh h)
          (by decide) (fun hne => ⟨by simp, hne⟩)
  · obtain ⟨r, t', out, htakes, hgimp⟩ := takes_chat env t h
    exact takesPacket_of_handler (own_mem (by repeat constructor)) l htakes (by decide) hgimp
  · exact takesPacket_of_handler (own_mem (by repeat constructor)) l (takes_extInfo env t h) (by decide)
      (fun hne => ⟨by simp, hne⟩)
  · exact takesPacket_of_handler (own_mem (by repeat constructor)) l (takes_extEntry env t h) (by decide)
      (fun hne => ⟨by simp, hne⟩)
  · exact takesPacket_of_handler (own_mem (by repeat constructor)) l (takes_textHotKey env t h) (by decide)
      (fun hne => ⟨by simp, hne⟩)
  · exact takesPacket_of_handler (own_mem (by repeat constructor)) l (takes_extAddEntity2 env t h) (by decide)
      (fun hne => ⟨by simp, hne⟩)
  · exact takesPacket_of_handler (own_mem (by repeat constructor)) l (takes_twoWayPing env t h) (by decide)
      (fun hne => ⟨by simp, hne⟩)

end Server

end LavaTunnel
