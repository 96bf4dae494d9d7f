import LavaTunnel.Correctness.Players

/-!
# `LavaTunnel.Correctness.Entities` — the records of the extension's packets

`ExtAddEntity2`, and positions in the wide mode, do not store the coordinates they carry but constants, and an
entity from 128 on is stored below the table. So the table is true of them only by chance: `Innocuous` says when.
-/

namespace LavaTunnel

open Wire Wire.Prog

namespace Client

/-! ## What the packets carry -/

/-- A packet of the extension: an entity, or a position in the wide mode. -/
def Extension (t : Tunnel) (q : Packet) : Prop := q.1 = 0x21 ∨ q.1 = 0x08 ∧ t.modes.wide = true

/-- The coordinate that the packet carries, in the 16 bits of the table: of four bytes the last two. -/
def carried (t : Tunnel) (a : Axis) (q : Packet) : UInt16 :=
  let offset := if q.1 = 0x21 then 129 else 1
  if t.modes.wide then host (field q.2 (offset + 4 * a.index + 2) 2) else host (field q.2 (offset + 2 * a.index) 2)

/-- The packet has kept the table true: the record has the coordinates of the packet, and an entity has been
    passed on to the client. -/
structure KeptTrue {env : Env} (r : ServerRun env) (k : Nat) (q : Packet) : Prop where
  coords : ∀ a, ((r.after (k + 1)).player (pidOf q).toNat).coord a = carried (r.found k) a q
  relayed : q.1 = 0x21 → r.relayed (k + 1) = r.relayed k ++ q.1 :: q.2

/-- The packet does no harm: it carries the constants that the code stores, or what the record it misses has
    already, and an entity comes in the narrow mode. -/
def Innocuous (t : Tunnel) (q : Packet) : Prop :=
  if q.1 = 0x21 then
    t.modes.wide = false ∧
      ∀ a, carried t a q = if (pidOf q).toNat < 128 then 0x1400 else (t.player (pidOf q).toNat).coord a
  else ∀ a, carried t a q = 0x4500

/-! ## What the code stores -/

section Step

variable {env : Env} {payload : Bytes} {t : Tunnel}

/-- **An entity below 128 gets a constant for each coordinate**, one from 128 on is not stored in the table. -/
theorem coord_entityAdded (a : Axis) :
    ((received env (0x21, payload) t).player (pidOf (0x21, payload)).toNat).coord a =
      if (pidOf (0x21, payload)).toNat < 128 then 0x1400 else (t.player (pidOf (0x21, payload)).toNat).coord a := by
  show ((entityAdded env payload t).player (pidOf (0x21, payload)).toNat).coord a = _
  unfold entityAdded addEntity
  have hindex := toInt_toInt8 (pidOf (0x21, payload))
  have hpid : byte (field payload 0 1) = pidOf (0x21, payload) := rfl
  rw [hpid, hindex]
  by_cases hlow : (pidOf (0x21, payload)).toNat < 128
  · rw [if_pos hlow, if_pos hlow, player_setPlayer_self]
    cases a <;> rfl
  · have hlt : (pidOf (0x21, payload)).toNat < 256 := UInt8.toNat_lt _
    rw [if_neg hlow, if_neg hlow, player_setPlayer_of_ne (by omega)]

/-- A wide position stores another constant. -/
theorem coord_positioned (hwide : t.modes.wide = true) (a : Axis) :
    ((received env (0x08, payload) t).player (pidOf (0x08, payload)).toNat).coord a = 0x4500 := by
  show ((positioned payload t).player (byte (field payload 0 1)).toNat).coord a = _
  unfold positioned placed
  rw [player_setPlayer_self, hwide]
  cases a <;> rfl

/-- The length of an entity. -/
theorem length_entity (h : FromServer t.modes (0x21, payload)) :
    payload.length = if t.modes.wide then 143 else 137 := by
  have hmem : ((0x21 : UInt8), payload.length) ∈ serverPackets t.modes := h
  simpa [serverPackets] using hmem

/-- In the wide mode an entity is not passed on. -/
theorem relayed_entity_wide (r : ServerRun env) {k : Nat} (hk : k < r.packets.length)
    (hq : r.packets[k] = (0x21, payload)) (hwide : (r.found k).modes.wide = true) :
    r.relayed (k + 1) = r.relayed k := by
  have hfrom := (r.round hk).1
  rw [hq] at hfrom
  have hlen := length_entity hfrom
  rw [if_pos hwide] at hlen
  have h := r.relayed_of_handler hk hq (own_mem (by repeat constructor))
    (takes_extAddEntity2_wide env (r.found k) hwide hlen)
  rwa [stream_nil, List.append_nil] at h

/-- In the narrow mode it is. -/
theorem relayed_entity (r : ServerRun env) {k : Nat} (hk : k < r.packets.length)
    (hq : r.packets[k] = (0x21, payload)) (hnarrow : (r.found k).modes.wide = false) :
    r.relayed (k + 1) = r.relayed k ++ 0x21 :: payload := by
  have hfrom := (r.round hk).1
  rw [hq] at hfrom
  have hlen := length_entity hfrom
  rw [if_neg (by simp [hnarrow])] at hlen
  rw [r.relayed_of_handler hk hq (own_mem (by repeat constructor))
    (takes_extAddEntity2 env (r.found k) hnarrow hlen)]
  exact congrArg (r.relayed k ++ ·) (stream_fields [1, 64, 64, 2, 2, 2, 1, 1] hlen (by simp [fieldsFrom]))

end Step

/-- **One packet keeps the table true just if it is harmless.** -/
theorem keptTrue_iff {env : Env} (r : ServerRun env) {k : Nat} (hk : k < r.packets.length)
    (hext : Extension (r.found k) r.packets[k]) : KeptTrue r k r.packets[k] ↔ Innocuous (r.found k) r.packets[k] := by
  have hafter := r.after_succ hk
  generalize hq : r.packets[k] = q at hext hafter ⊢
  obtain ⟨id, payload⟩ := q
  -- the entity is judged by what is relayed, the wide position only by what is stored
  by_cases hentity : id = 0x21
  · subst hentity
    have hcoords : (∀ a, ((r.after (k + 1)).player (pidOf (0x21, payload)).toNat).coord a =
          carried (r.found k) a (0x21, payload)) ↔
        ∀ a, carried (r.found k) a (0x21, payload) = if (pidOf (0x21, payload)).toNat < 128 then 0x1400
          else ((r.found k).player (pidOf (0x21, payload)).toNat).coord a := by
      rw [hafter]
      exact forall_congr' fun a => by rw [coord_entityAdded]; exact eq_comm
    have hinnocuous : Innocuous (r.found k) (0x21, payload) = _ := if_pos rfl
    rw [hinnocuous, ← hcoords]
    cases hwide : (r.found k).modes.wide with
    | true =>
        refine ⟨fun h => ?_, fun h => absurd h.1 (by simp)⟩
        have hrelayed := h.relayed rfl
        rw [relayed_entity_wide r hk hq hwide] at hrelayed
        exact absurd (List.self_eq_append_right.mp hrelayed) (by simp)
    | false =>
        exact ⟨fun h => ⟨rfl, h.coords⟩, fun h => ⟨h.2, fun _ => relayed_entity r hk hq hwide⟩⟩
  · obtain ⟨hid, hwide⟩ : id = 0x08 ∧ (r.found k).modes.wide = true := by
      rcases hext with h | h
      · exact absurd h hentity
      · exact h
    subst hid
    have hinnocuous : Innocuous (r.found k) (0x08, payload) = ∀ a, carried (r.found k) a (0x08, payload) = 0x4500 :=
      if_neg hentity
    have hstored : ∀ a, ((r.after (k + 1)).player (pidOf (0x08, payload)).toNat).coord a = 0x4500 := by
      intro a
      rw [hafter, coord_positioned hwide]
    rw [hinnocuous]
    constructor
    · intro h a
      rw [← h.coords a, hstored a]
    · intro h
      refine ⟨fun a => ?_, fun h21 => absurd h21 hentity⟩
      rw [hstored a, h a]

end Client

/-- **Extension packets.** In a run, every packet of the extension keeps the table true just if every one of them
    is harmless. -/
theorem entities_true_iff (env : Env) (r : ServerRun env) :
    (∀ k (hk : k < r.packets.length), Client.Extension (r.found k) r.packets[k] → Client.KeptTrue r k r.packets[k]) ↔
      ∀ k (hk : k < r.packets.length), Client.Extension (r.found k) r.packets[k] →
        Client.Innocuous (r.found k) r.packets[k] :=
  forall₂_congr fun _ hk => forall_congr' fun hext => Client.keptTrue_iff r hk hext

/-- An entity at (32, 32, 32). -/
def entityPacket : Packet := (0x21, 5 :: List.replicate 128 32 ++ [0, 32, 0, 32, 0, 32, 0, 0])

theorem noKick_entity : ∀ p ∈ [entityPacket].dropLast, p.1 ≠ 0x0e := by decide

theorem fromServer_entity : ∀ p ∈ [entityPacket], FromServer ({} : Tunnel).modes p ∧ p.1 ≠ 0x11 := by decide +kernel

/-- The entity, in the narrow mode. -/
def entityEnters : ServerRun {} :=
  .alone {} ServerRun.endDocumented_default [entityPacket] {} noKick_entity fromServer_entity

/-- The table has the entity at (5120, 5120, 5120). -/
theorem entity_misplaced : ¬ ∀ (env : Env) (r : ServerRun env) (k : Nat) (hk : k < r.packets.length),
    Client.Extension (r.found k) r.packets[k] → Client.KeptTrue r k r.packets[k] := by
  intro hall
  have hextension : Client.Extension (entityEnters.found 0) entityPacket := Or.inl rfl
  have hinnocuous := (Client.keptTrue_iff entityEnters (k := 0) (by decide) hextension).mp
    (hall {} entityEnters 0 (by decide) hextension)
  unfold Client.Innocuous at hinnocuous
  rw [if_pos (show entityEnters.packets[0].1 = 0x21 from rfl)] at hinnocuous
  exact absurd (hinnocuous.2 .x) (by decide +kernel)

end LavaTunnel
