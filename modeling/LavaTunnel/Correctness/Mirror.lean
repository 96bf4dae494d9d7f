import LavaTunnel.Correctness.Runs

/-!
# `LavaTunnel.Correctness.Mirror` — the map of the tunnel and the level of the client

The tunnel keeps a copy of the level. The client's own level is what the packets that reach it say
(`Level.deliver`): the loaded blocks, the set blocks, and the bulk updates. The copy follows all of it but the
bulk updates, which are passed on without a look at the map. So the two agree over a run just if no bulk
update changes a block.
-/

namespace LavaTunnel

open Wire Wire.Prog

namespace Client

/-! ## The level of the client -/

/-- The place of an entry of a bulk update: four bytes, the high one first. -/
def bulkIndex (payload : Bytes) (k : Nat) : Int :=
  ((field payload (1 + 4 * k) 4).foldl (fun n b => 256 * n + b.toNat) 0 : Nat)

/-- The block of an entry. -/
def bulkBlock (payload : Bytes) (k : Nat) : UInt8 := byte (field payload (1025 + k) 1)

/-- A map after a bulk update: `count` is one less than the number of entries. -/
def bulkUpdated (payload : Bytes) (map : Int → UInt8) : Int → UInt8 :=
  (List.range ((byte payload).toNat + 1)).foldl
    (fun m k => Function.update m (bulkIndex payload k) (bulkBlock payload k)) map

/-- What the client makes of a packet for its level. -/
def Level.deliver (env : Env) (v : Level) (p : Packet) : Level :=
  if p.1 = 38 then { v with map := bulkUpdated p.2 v.map } else v.receive env p

/-- The second level is the first one, with a map that agrees with the first wherever it has a block. -/
def Agrees (v w : Level) : Prop :=
  ∃ map, w = { v with map := map } ∧ ∀ i : Int, 0 ≤ i → i < v.mapAlloc → v.map i = map i

theorem Agrees.refl (v : Level) : Agrees v v := ⟨v.map, rfl, fun _ _ _ => rfl⟩

theorem Agrees.map {v w : Level} (h : Agrees v w) {i : Int} (h0 : 0 ≤ i) (hi : i < v.mapAlloc) :
    v.map i = w.map i := by
  obtain ⟨map, rfl, hmap⟩ := h
  exact hmap i h0 hi

section Step

variable {env : Env} {p : Packet} {v w : Level}

/-- **Both follow every packet in the same way**, as long as it is not a bulk update. -/
theorem Agrees.receive (h : Agrees v w) : Agrees (v.receive env p) (w.receive env p) := by
  obtain ⟨map, rfl, hmap⟩ := h
  unfold Level.receive
  by_cases h3 : p.1 = 0x03
  · rw [if_pos h3, if_pos h3]
    exact ⟨map, rfl, hmap⟩
  rw [if_neg h3, if_neg h3]
  by_cases h4 : p.1 = 0x04
  · -- the new map does not depend on the old one
    rw [if_pos h4, if_pos h4]
    refine ⟨_, rfl, fun i h0 hi => ?_⟩
    have hsize : 0 ≤ i ∧ i < uncompressedsize (resized p.2 v.tunnel) := ⟨h0, hi⟩
    exact (if_pos hsize).trans (if_pos hsize).symm
  rw [if_neg h4, if_neg h4]
  by_cases h6 : p.1 = 0x06
  · rw [if_pos h6, if_pos h6]
    refine ⟨_, rfl, fun i h0 hi => ?_⟩
    show Function.update v.map (calculateOffset v.tunnel _ _ _) _ i =
      Function.update map (calculateOffset v.tunnel _ _ _) _ i
    by_cases hoffset : i = calculateOffset v.tunnel (host (field p.2 0 2)).toInt16
        (host (field p.2 2 2)).toInt16 (host (field p.2 4 2)).toInt16
    · rw [hoffset, Function.update_self, Function.update_self]
    · rw [Function.update_of_ne hoffset, Function.update_of_ne hoffset]
      exact hmap i h0 hi
  rw [if_neg h6, if_neg h6]
  exact ⟨map, rfl, hmap⟩

/-- A bulk update does the same to both. -/
theorem Agrees.bulkUpdated (h : Agrees v w) (payload : Bytes) {i : Int} (h0 : 0 ≤ i) (hi : i < v.mapAlloc) :
    bulkUpdated payload v.map i = Client.bulkUpdated payload w.map i := by
  unfold Client.bulkUpdated
  generalize List.range ((byte payload).toNat + 1) = ks
  have hmap := h.map h0 hi
  generalize v.map = m at hmap
  generalize w.map = m' at hmap
  induction ks generalizing m m' with
  | nil => exact hmap
  | cons k ks ih =>
      refine ih _ _ ?_
      show Function.update m _ (bulkBlock payload k) i = Function.update m' _ (bulkBlock payload k) i
      by_cases hk : i = bulkIndex payload k
      · rw [hk, Function.update_self, Function.update_self]
      · rw [Function.update_of_ne hk, Function.update_of_ne hk, hmap]

end Step

/-! ## The run -/

/-- The map holds the blocks of the client's level. -/
def Mirrors (t : Tunnel) (v : Level) : Prop := ∀ i : Int, 0 ≤ i → i < t.mapAlloc → t.map i = v.map i

/-- A bulk update that changes no block of the map. -/
def Idle (p : Packet) (t : Tunnel) : Prop :=
  p.1 = 38 → ∀ i : Int, 0 ≤ i → i < t.mapAlloc → bulkUpdated p.2 t.map i = t.map i

/-- One packet: the map follows it just if it is not a bulk update, or an idle one. -/
theorem mirrors_deliver_iff {env : Env} {p : Packet} {t t' : Tunnel} {w : Level} (h : Agrees (level t) w)
    (ht' : level t' = (level t).receive env p) :
    (Mirrors t' (w.deliver env p) ↔ Idle p t) ∧ (Idle p t → Agrees (level t') (w.deliver env p)) := by
  unfold Level.deliver Idle
  by_cases hbulk : p.1 = 38
  · rw [if_pos hbulk]
    have hsame : level t' = level t := by
      rw [ht', Level.receive, if_neg (by rw [hbulk]; decide), if_neg (by rw [hbulk]; decide),
        if_neg (by rw [hbulk]; decide)]
    have hmap : t'.map = t.map := congrArg Level.map hsame
    have halloc : t'.mapAlloc = t.mapAlloc := congrArg Level.mapAlloc hsame
    have hfollow : Mirrors t' { w with map := bulkUpdated p.2 w.map } ↔
        ∀ i : Int, 0 ≤ i → i < t.mapAlloc → bulkUpdated p.2 t.map i = t.map i := by
      unfold Mirrors
      rw [hmap, halloc]
      refine forall₃_congr fun i h0 hi => ?_
      rw [show bulkUpdated p.2 t.map i = _ from h.bulkUpdated p.2 h0 hi]
      exact eq_comm
    refine ⟨hfollow.trans (by simp [hbulk]), fun hidle => ?_⟩
    rw [hsame]
    obtain ⟨map, rfl, hagree⟩ := h
    refine ⟨_, rfl, fun i h0 hi => ?_⟩
    have hfollow' := hfollow.mpr (hidle hbulk) i h0 (by rw [halloc]; exact hi)
    rw [hmap] at hfollow'
    exact hfollow'
  · rw [if_neg hbulk]
    have hagree : Agrees (level t') (w.receive env p) := ht' ▸ h.receive
    exact ⟨iff_of_true (fun i h0 hi => hagree.map h0 hi) (fun h38 => absurd h38 hbulk), fun _ => hagree⟩

theorem idle_congr {p : Packet} {t t' : Tunnel} (h : level t' = level t) : Idle p t' ↔ Idle p t := by
  have hmap : t'.map = t.map := congrArg Level.map h
  have halloc : t'.mapAlloc = t.mapAlloc := congrArg Level.mapAlloc h
  unfold Idle
  rw [hmap, halloc]

end Client

namespace ServerRun

open Client

variable {env : Env} (r : ServerRun env) {w : Level}

/-- The map of a state agrees with the client's level after `k` packets, when that was `w` at the start. -/
def AgreesAt (w : Level) (k : Nat) (t : Tunnel) : Prop :=
  Agrees (level t) ((r.packets.take k).foldl (Level.deliver env) w)

theorem agreesAt_found (hfs : ∀ f ∈ r.others, ∀ t, level (f t) = level t) {k : Nat} :
    r.AgreesAt w k (r.found k) ↔ r.AgreesAt w k (r.after k) := by
  unfold AgreesAt
  rw [r.found_of_kept hfs]

/-- One round: the map follows the packet just if it is idle, and then the two still agree. -/
theorem agreesAt_succ (hfs : ∀ f ∈ r.others, ∀ t, level (f t) = level t) {k : Nat} (hk : k < r.packets.length)
    (h : r.AgreesAt w k (r.found k)) :
    (Mirrors (r.after (k + 1)) ((r.packets.take (k + 1)).foldl (Level.deliver env) w) ↔
        Idle r.packets[k] (r.after k)) ∧
      (Idle r.packets[k] (r.after k) → r.AgreesAt w (k + 1) (r.after (k + 1))) := by
  unfold AgreesAt
  rw [r.after_succ hk, List.take_succ_eq_append_getElem hk, List.foldl_append, ← idle_congr (r.found_of_kept hfs k)]
  exact mirrors_deliver_iff h (received_frame env r.packets[k] (r.found k)).2.2

/-- **As long as every packet is idle, the two agree.** -/
theorem agreesAt_after (hfs : ∀ f ∈ r.others, ∀ t, level (f t) = level t) (hstart : Agrees (level r.state) w)
    (hidle : ∀ k (hk : k < r.packets.length), r.AgreesAt w k (r.found k) → Idle r.packets[k] (r.after k))
    {k : Nat} (hk : k ≤ r.packets.length) : r.AgreesAt w k (r.after k) := by
  apply r.invariant (r.AgreesAt w) hstart ?_ ?_ hk
  · intro k h
    exact (r.agreesAt_found hfs).mpr h
  · intro k hk h
    rw [← r.after_succ hk]
    exact (r.agreesAt_succ hfs hk h).2 (hidle k hk h)

/-- The run, from any level of the client that agrees with the map. -/
theorem mirrors_iff (hfs : ∀ f ∈ r.others, ∀ t, level (f t) = level t) (hstart : Agrees (level r.state) w) :
    (∀ k ≤ r.packets.length, Mirrors (r.after k) ((r.packets.take k).foldl (Level.deliver env) w)) ↔
      ∀ k (hk : k < r.packets.length), Idle r.packets[k] (r.after k) := by
  constructor
  · intro hmirrors
    have hidle : ∀ k (hk : k < r.packets.length), r.AgreesAt w k (r.found k) →
        Idle r.packets[k] (r.after k) := by
      intro k hk h
      exact (r.agreesAt_succ hfs hk h).1.mp (hmirrors (k + 1) hk)
    intro k hk
    apply hidle k hk
    exact (r.agreesAt_found hfs).mpr (r.agreesAt_after hfs hstart hidle (Nat.le_of_lt hk))
  · intro hidle k hk i h0 hi
    have hagrees := r.agreesAt_after hfs hstart (fun k hk _ => hidle k hk) hk
    exact hagrees.map h0 hi

end ServerRun

/-- **Map mirror coherence.** In a run of complete packets, up to a kick, in which the other threads leave the
    level alone, the map is the level of the client at every moment just if every bulk update finds its blocks
    in the map already. -/
theorem map_mirrors_iff (env : Env) (hz : env.zlib.EndDocumented) (ps : List Packet)
    (hkick : ∀ p ∈ ps.dropLast, p.1 ≠ 0x0e) (fs : List (Tunnel → Tunnel)) (hlen : fs.length = ps.length)
    (hfs : ∀ f ∈ fs, ∀ t, Client.level (f t) = Client.level t) (l : McLocals) (t : Tunnel)
    (hps : Client.CompleteRun env fs l ps t) (rest : Bytes) :
    (∀ k ≤ ps.length, Client.Mirrors (Client.stateAfter env fs l (encode ps ++ rest) t k)
        ((ps.take k).foldl (Client.Level.deliver env) (Client.level t))) ↔
      ∀ k (hk : k < ps.length), Client.Idle ps[k] (Client.stateAfter env fs l (encode ps ++ rest) t k) :=
  ServerRun.mirrors_iff ⟨ps, fs, l, t, rest, hlen, hkick, hps, fun _ _ _ => hz⟩ hfs (Client.Agrees.refl _)

/-- A level of one block. -/
def oneBlock : Tunnel := { lvlx := 1, lvly := 1, lvlz := 1, mapAlloc := 1 }

/-- A set block, with nobody else at work. -/
theorem map_mirrors_setBlock :
    (∀ k ≤ 1, Client.Mirrors (Client.stateAfter {} [id] {} (encode [(0x06, [0, 0, 0, 0, 0, 0, 5])] ++ []) oneBlock k)
        (([((0x06 : UInt8), ([0, 0, 0, 0, 0, 0, 5] : Bytes))].take k).foldl (Client.Level.deliver {})
          (Client.level oneBlock))) ↔
      ∀ k (hk : k < 1), Client.Idle [((0x06 : UInt8), ([0, 0, 0, 0, 0, 0, 5] : Bytes))][k]
        (Client.stateAfter {} [id] {} (encode [(0x06, [0, 0, 0, 0, 0, 0, 5])] ++ []) oneBlock k) := by
  refine map_mirrors_iff {} (fun _ _ _ => Or.inl rfl) [(0x06, [0, 0, 0, 0, 0, 0, 5])] (by decide) [id] rfl ?_ {}
    oneBlock ⟨by decide, fun _ _ _ _ => trivial⟩ []
  intro f hf t
  obtain rfl := List.mem_singleton.mp hf
  rfl

/-- A bulk update of one entry: block 7 at index 0. -/
def bulkSeven : Packet := (38, (0 :: List.replicate 1024 0) ++ 7 :: List.replicate 255 0)

theorem bulkIndex_bulkSeven : Client.bulkIndex bulkSeven.2 0 = 0 := by
  have hfield : field bulkSeven.2 (1 + 4 * 0) 4 = [0, 0, 0, 0] := by
    unfold bulkSeven field
    rw [show 1024 = 4 + 1020 from rfl, List.replicate_add]
    rfl
  rw [Client.bulkIndex, hfield]
  rfl

theorem bulkBlock_bulkSeven : Client.bulkBlock bulkSeven.2 0 = 7 := by
  have hdrop : bulkSeven.2.drop (1025 + 0) = 7 :: List.replicate 255 0 :=
    List.drop_left' (by rw [List.length_cons, List.length_replicate])
  rw [Client.bulkBlock, field, hdrop]
  rfl

/-- The client has the new block, the map the old one. -/
theorem map_misses_bulk :
    Client.CompleteRun {} [id] {} [bulkSeven] oneBlock ∧
      ¬ ∀ k ≤ 1, Client.Mirrors (Client.stateAfter {} [id] {} (encode [bulkSeven] ++ []) oneBlock k)
        (([bulkSeven].take k).foldl (Client.Level.deliver {}) (Client.level oneBlock)) := by
  have hcomplete : Client.CompleteRun {} [id] {} [bulkSeven] oneBlock := by
    refine ⟨?_, fun _ _ _ _ => trivial⟩
    have hlen : bulkSeven.2.length = 1281 := by
      simp only [bulkSeven, List.length_append, List.length_cons, List.length_replicate]
    show if bulkSeven.1 = 0x03 then _ else _
    rw [if_neg (by decide), hlen]
    decide
  refine ⟨hcomplete, fun hmirrors => ?_⟩
  have hlevel : ∀ f ∈ [id], ∀ t : Tunnel, Client.level (f t) = Client.level t := by
    intro f hf t
    obtain rfl := List.mem_singleton.mp hf
    rfl
  let r : ServerRun {} :=
    ⟨[bulkSeven], [id], {}, oneBlock, [], rfl, by decide, hcomplete, fun _ _ _ => ServerRun.endDocumented_default⟩
  have hidle := (r.mirrors_iff hlevel (Client.Agrees.refl _)).mp hmirrors 0 Nat.one_pos rfl 0 le_rfl Int.one_pos
  have hentry : Client.bulkUpdated bulkSeven.2 oneBlock.map 0 = Client.bulkBlock bulkSeven.2 0 := by
    have hcount : (byte bulkSeven.2).toNat + 1 = 1 := rfl
    rw [Client.bulkUpdated, hcount, List.range_one, List.foldl_cons, List.foldl_nil, bulkIndex_bulkSeven,
      Function.update_self]
  have hzero : Client.bulkBlock bulkSeven.2 0 = 0 := hentry.symm.trans hidle
  rw [bulkBlock_bulkSeven] at hzero
  exact absurd hzero (by decide)

end LavaTunnel
