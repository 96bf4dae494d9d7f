import LavaTunnel.Server

/-!
# `LavaTunnel.Protocol` — the packets

What a packet is on the wire, in numbers: an id and a payload whose length depends on the id. The length
of three packets from the server also depends on the extensions that both sides have announced, and the
length of a piece of level data is in its first two bytes. The two tables are the packets each of the
dispatch loops is written for; `mem_serverPackets` and `mem_clientPackets` find their handlers.
-/

namespace LavaTunnel

open Wire Wire.Prog

/-- A packet: its id and its payload. -/
abbrev Packet := UInt8 × Bytes

/-- Packets on the wire. -/
def encode (ps : List Packet) : Bytes := ps.flatMap (fun p => p.1 :: p.2)

@[simp] theorem encode_nil : encode [] = [] := rfl

@[simp] theorem encode_cons (p : Packet) (ps : List Packet) :
    encode (p :: ps) = p.1 :: (p.2 ++ encode ps) := rfl

/-- The packets of a stream, each as its bytes. -/
theorem encode_eq_flatten (ps : List Packet) : encode ps = (ps.map (fun p => p.1 :: p.2)).flatten := by
  induction ps with
  | nil => rfl
  | cons p ps ih => simp [ih]

/-- The extensions that change a length: `FastMap`, and the wide coordinates of `ExtEntityPositions`. -/
structure Modes where
  fast : Bool
  wide : Bool

/-- The modes that have been negotiated. -/
def Tunnel.modes (t : Tunnel) : Modes := ⟨t.negotiated CPE.fastMap, t.negotiated CPE.extEntityPos⟩

/-- The payload lengths of the packets from the server, the level data apart. -/
def serverPackets (m : Modes) : List (UInt8 × Nat) :=
  [(0x00, 130), (0x01, 0), (0x02, if m.fast then 4 else 0), (0x04, 6), (0x06, 7), (0x07, 73),
    (0x08, if m.wide then 15 else 9), (0x09, 6), (0x0a, 4), (0x0b, 3), (0x0c, 1), (0x0d, 65), (0x0e, 64),
    (0x0f, 1), (0x10, 66), (0x11, 68), (0x12, 2), (0x13, 1), (0x14, 2), (0x15, 133), (0x16, 195), (0x18, 2),
    (0x19, 7), (0x1A, 85), (0x1B, 1), (0x1C, 3), (0x1D, 65), (0x1E, 72), (0x1F, 1), (0x20, 7),
    (0x21, if m.wide then 143 else 137), (0x22, 14), (35, 79), (36, 1), (37, 87), (38, 1281), (39, 5),
    (40, 64), (41, 5), (42, 7), (43, 3), (44, 2)]

/-- The payload lengths of the packets from the client, as `tunnelServer` takes them. -/
def clientPackets : List (UInt8 × Nat) :=
  [(0x00, 130), (0x05, 8), (0x08, 9), (0x0d, 65), (0x10, 66), (0x11, 68), (0x12, 2), (0x13, 1), (0x14, 2),
    (0x15, 133), (0x16, 195), (0x18, 2), (0x19, 7), (0x1A, 85), (0x1B, 1), (0x1C, 3), (0x1D, 65), (0x1E, 68),
    (0x1F, 1), (0x21, 137), (0x22, 15), (43, 3)]

/-- The length a piece of level data announces. -/
def chunkLength (payload : Bytes) : Int := (host (payload.take 2)).toInt16.toInt

/-- A complete piece of level data: the length, at least 1024 bytes of data, and the percentage. -/
def LevelChunk (payload : Bytes) : Prop :=
  0 ≤ chunkLength payload ∧ (payload.length : Int) = 3 + max 1024 (chunkLength payload)

instance (payload : Bytes) : Decidable (LevelChunk payload) := inferInstanceAs (Decidable (_ ∧ _))

/-- A complete packet from the server. -/
def FromServer (m : Modes) (p : Packet) : Prop :=
  if p.1 = 0x03 then LevelChunk p.2 else (p.1, p.2.length) ∈ serverPackets m

instance (m : Modes) (p : Packet) : Decidable (FromServer m p) := inferInstanceAs (Decidable (ite ..))

/-- A complete packet from the client. -/
def FromClient (p : Packet) : Prop := (p.1, p.2.length) ∈ clientPackets

instance (p : Packet) : Decidable (FromClient p) := inferInstanceAs (Decidable (_ ∈ _))

/-! ## The handlers of the packets -/

/-- The lengths of the packets from the server that are not for a relay. -/
def Client.specials (m : Modes) : List (UInt8 × Nat) :=
  [(0x00, 130), (0x02, if m.fast then 4 else 0), (0x04, 6), (0x06, 7), (0x07, 73),
    (0x08, if m.wide then 15 else 9), (0x09, 6), (0x0a, 4), (0x0b, 3), (0x0c, 1), (0x0e, 64), (0x10, 66),
    (0x11, 68), (0x14, 2), (0x18, 2), (0x1C, 3), (0x20, 7), (0x21, if m.wide then 143 else 137), (42, 7)]

/-- The lengths of the packets from the client that are not for a relay. -/
def Server.specials : List (UInt8 × Nat) :=
  [(0x00, 130), (0x05, 8), (0x08, 9), (0x0d, 65), (0x10, 66), (0x11, 68), (0x15, 133), (0x21, 137), (43, 3)]

/-- **Every packet from the server has its handler**: a relay of its length, or one of its own. -/
theorem mem_serverPackets {m : Modes} {id : UInt8} {n : Nat} (h : (id, n) ∈ serverPackets m) :
    (∃ r ∈ Client.relays, r.id = id ∧ r.width = n) ∨ (id, n) ∈ Client.specials m := by
  have hall : ∀ fast wide : Bool, ∀ e ∈ serverPackets ⟨fast, wide⟩,
      (∃ r ∈ Client.relays, r.id = e.1 ∧ r.width = e.2) ∨ e ∈ Client.specials ⟨fast, wide⟩ := by
    decide
  exact hall m.fast m.wide (id, n) h

/-- **Every packet from the client has its handler.** -/
theorem mem_clientPackets {id : UInt8} {n : Nat} (h : (id, n) ∈ clientPackets) :
    (∃ r ∈ Server.relays, r.id = id ∧ r.width = n) ∨ (id, n) ∈ Server.specials := by
  have hall : ∀ e ∈ clientPackets,
      (∃ r ∈ Server.relays, r.id = e.1 ∧ r.width = e.2) ∨ e ∈ Server.specials := by
    decide
  exact hall (id, n) h

/-- A table with distinct keys gives each entry under its key. -/
theorem lookup_of_mem {β : Type} {l : List (UInt8 × β)} (hl : (l.map Prod.fst).Nodup) {id : UInt8} {c : β}
    (h : (id, c) ∈ l) : l.lookup id = some c := by
  induction l with
  | nil => exact absurd h (by simp)
  | cons e l ih =>
      rw [List.map_cons, List.nodup_cons] at hl
      rcases List.mem_cons.mp h with rfl | h
      · rw [List.lookup_cons, beq_self_eq_true]
      · have hne : id ≠ e.1 := fun heq => hl.1 (heq ▸ List.mem_map_of_mem h)
        rw [List.lookup_cons, beq_false_of_ne hne]
        exact ih hl.2 h

theorem mem_of_lookup {β : Type} {l : List (UInt8 × β)} {id : UInt8} {c : β} (h : l.lookup id = some c) :
    (id, c) ∈ l := by
  obtain ⟨l₁, l₂, rfl, -⟩ := List.lookup_eq_some_iff.mp h
  exact List.mem_append_right _ List.mem_cons_self

/-- An id of the table has its entry. -/
theorem exists_of_mem_ids {β : Type} {l : List (UInt8 × β)} {id : UInt8} (h : id ∈ l.map Prod.fst) :
    ∃ c, (id, c) ∈ l := by
  obtain ⟨e, he, rfl⟩ := List.mem_map.mp h
  exact ⟨e.2, he⟩

/-- The ids that `mcConnect` has a handler for. -/
theorem Client.ids_handlers (env : Env) : (Client.handlers env).map Prod.fst =
    [0x01, 0x0d, 0x0f, 0x12, 0x13, 0x15, 0x16, 0x19, 0x1A, 0x1B, 0x1D, 30, 0x1F, 34, 35, 36, 37, 38, 39,
      40, 41, 43, 44, 0x02, 0x03, 0x06, 0x07, 0x08, 0x09, 0x0a, 0x0b, 0x0c, 0x10, 0x11, 0x14, 0x21, 0x18,
      0x1C, 0x20, 42] := rfl

/-- The ids that `tunnelServer` has a handler for. -/
theorem Server.ids_handlers (env : Env) : (Server.handlers env).map Prod.fst =
    [0x12, 0x13, 0x14, 0x16, 0x18, 0x19, 0x1A, 0x1B, 0x1C, 0x1D, 0x1E, 0x1F, 0x22, 0x05, 0x08, 0x0d, 0x10,
      0x11, 0x15, 0x21, 43] := rfl

/-- A handler of `mcConnect` is found under its id. -/
theorem Client.dispatch_of_mem {env : Env} {id : UInt8} {c : Code Unit}
    (h : (id, c) ∈ Client.handlers env) (l : McLocals) :
    Client.dispatch env id l = (do c; pure l) := by
  have hids := Client.ids_handlers env
  have hmem : id ∈ (Client.handlers env).map Prod.fst := List.mem_map_of_mem h
  rw [hids] at hmem
  have h0 : id ≠ 0x00 := ne_of_mem_of_not_mem hmem (by decide)
  have h4 : id ≠ 0x04 := ne_of_mem_of_not_mem hmem (by decide)
  have he : id ≠ 0x0e := ne_of_mem_of_not_mem hmem (by decide)
  unfold Client.dispatch
  rw [if_neg h0, if_neg h4, if_neg he, lookup_of_mem (by rw [hids]; decide) h]

/-- A handler of `tunnelServer` is found under its id. -/
theorem Server.dispatch_of_mem {env : Env} {id : UInt8} {c : Code Unit}
    (h : (id, c) ∈ Server.handlers env) (l : ServerLocals) :
    Server.dispatch env id l = (do c; pure l) := by
  have hids := Server.ids_handlers env
  have hmem : id ∈ (Server.handlers env).map Prod.fst := List.mem_map_of_mem h
  rw [hids] at hmem
  have h0 : id ≠ 0x00 := ne_of_mem_of_not_mem hmem (by decide)
  unfold Server.dispatch
  rw [if_neg (fun h => h0 h.1), lookup_of_mem (by rw [hids]; decide) h]

/-- A relay of `mcConnect` is one of its handlers. -/
theorem Client.relay_mem (env : Env) {r : Relay} (hr : r ∈ Client.relays) :
    (r.id, relay env serverSock r) ∈ Client.handlers env :=
  List.mem_append_left _ (List.mem_map.mpr ⟨r, hr, rfl⟩)

/-- A relay of `tunnelServer` is one of its handlers. -/
theorem Server.relay_mem (env : Env) {r : Relay} (hr : r ∈ Server.relays) :
    (r.id, relay env tunnelSock r) ∈ Server.handlers env :=
  List.mem_append_left _ (List.mem_map.mpr ⟨r, hr, rfl⟩)

/-- A handler with its own entry in the table of `mcConnect`. -/
theorem Client.own_mem {env : Env} {e : UInt8 × Code Unit}
    (h : e ∈ (Client.handlers env).drop Client.relays.length) : e ∈ Client.handlers env :=
  List.mem_of_mem_drop h

/-- A handler with its own entry in the table of `tunnelServer`. -/
theorem Server.own_mem {env : Env} {e : UInt8 × Code Unit}
    (h : e ∈ (Server.handlers env).drop Server.relays.length) : e ∈ Server.handlers env :=
  List.mem_of_mem_drop h

/-! ## A round of the loops -/

/-- The id of a packet, as the two dispatch loops receive it. -/
theorem run_recv_id (env : Env) {α : Type} (gone : Code α) (dispatch : UInt8 → Code α) (id : UInt8)
    (rest : Bytes) (t : Tunnel) :
    (do let r ← recvW 1
        if r.1 < 1 then gone else dispatch (byte (env.fill 1 r.2))).run (id :: rest) t =
      (dispatch id).run rest t := by
  rw [run_recvW_bind]
  rfl

/-- A round with a handler of the table. -/
theorem run_tunnelServer {env : Env} {id : UInt8} {l : ServerLocals} {t : Tunnel} {c : Code Unit}
    (hc : (id, c) ∈ Server.handlers env) (i : Bytes) :
    (tunnelServer env l).run (id :: i) t = andThen (c.run i t) (fun _ => pure l) := by
  rw [tunnelServer, run_recv_id env Prog.exit (fun id => Server.dispatch env id l),
    Server.dispatch_of_mem hc, run_bind]

/-- A round receives the id, and then the handler takes the payload. -/
theorem takes_mcConnect {env : Env} {p : Packet} {l : McLocals} {t t' : Tunnel} {r : Option McLocals}
    {out : List (Socket × Bytes)} (h : (Client.dispatch env p.1 l).Takes p.2 t r t' out) :
    (mcConnect env l).Takes (p.1 :: p.2) t r t' out := by
  intro rest
  rw [mcConnect, List.cons_append]
  rw [run_recv_id env Client.disconnected (fun id => Client.dispatch env id l)]
  exact h rest

theorem takes_tunnelServer {env : Env} {p : Packet} {l : ServerLocals} {t t' : Tunnel}
    {r : Option ServerLocals} {out : List (Socket × Bytes)}
    (h : (Server.dispatch env p.1 l).Takes p.2 t r t' out) :
    (tunnelServer env l).Takes (p.1 :: p.2) t r t' out := by
  intro rest
  rw [tunnelServer, List.cons_append]
  rw [run_recv_id env Prog.exit (fun id => Server.dispatch env id l)]
  exact h rest

/-! ## Packets up to a kick -/

/-- Where only the last packet can be a kick, nothing follows one. -/
theorem eq_nil_of_kick {p : Packet} {ps : List Packet} (hkick : ∀ q ∈ (p :: ps).dropLast, q.1 ≠ 0x0e)
    (hp : p.1 = 0x0e) : ps = [] := by
  by_contra hne
  rw [List.dropLast_cons_of_ne_nil hne] at hkick
  exact hkick p List.mem_cons_self hp

/-- The rest of such packets is such, too. -/
theorem kick_last_tail {p : Packet} {ps : List Packet} (hkick : ∀ q ∈ (p :: ps).dropLast, q.1 ≠ 0x0e) :
    ∀ q ∈ ps.dropLast, q.1 ≠ 0x0e := by
  intro q hq
  apply hkick q
  cases ps with
  | nil => exact absurd hq List.not_mem_nil
  | cons a ps =>
      rw [List.dropLast_cons_of_ne_nil (List.cons_ne_nil a ps)]
      exact List.mem_cons_of_mem p hq

end LavaTunnel
