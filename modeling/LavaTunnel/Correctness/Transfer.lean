import LavaTunnel.Correctness.Pieces
import LavaTunnel.Correctness.Runs
import Mathlib.Data.List.Induction

/-!
# `LavaTunnel.Correctness.Transfer` — the pieces of a level

The pieces of a level are collected in `mapC` until a level is finished. That is the only thing that empties it: the
packet that begins a level does not, so the pieces of a level that was given up are in front of the next one. And the
size of `mapC` is an `int`, to which the length of a piece is added twice when `realloc` is asked for it.
-/

namespace LavaTunnel

open Wire Wire.Prog

namespace Client

/-! ## The pieces in a list of packets -/

/-- The level data in a packet: of the 1024 bytes as many as its length says. -/
def chunk (q : Packet) : Bytes := if q.1 = 0x03 then field q.2 2 (chunkLength q.2).toNat else []

/-- The level data in some packets. -/
def chunks (ps : List Packet) : Bytes := ps.flatMap chunk

/-- The packets after the last one with this id. -/
def sinceLast (id : UInt8) (ps : List Packet) : List Packet := (ps.reverse.takeWhile (fun q => q.1 ≠ id)).reverse

theorem sinceLast_concat (id : UInt8) (ps : List Packet) (q : Packet) :
    sinceLast id (ps ++ [q]) = if q.1 = id then [] else sinceLast id ps ++ [q] := by
  unfold sinceLast
  rw [List.reverse_append, List.reverse_singleton, List.singleton_append]
  by_cases hq : q.1 = id
  · rw [if_pos hq, List.takeWhile_cons_of_neg (by simpa using hq), List.reverse_nil]
  · rw [if_neg hq, List.takeWhile_cons_of_pos (by simpa using hq), List.reverse_cons]

theorem chunks_sinceLast_concat (id : UInt8) (ps : List Packet) (q : Packet) :
    chunks (sinceLast id (ps ++ [q])) = if q.1 = id then [] else chunks (sinceLast id ps) ++ chunk q := by
  rw [sinceLast_concat]
  split
  · rfl
  · unfold chunks
    rw [List.flatMap_append, List.flatMap_singleton]

theorem chunk_of_ne {q : Packet} (h : q.1 ≠ 0x03) : chunk q = [] := if_neg h

/-- A property of each packet and of the packets behind it, when there is one more at the end. -/
theorem forall_behind_concat {P : Packet → List Packet → Prop} (ps : List Packet) (s : Packet) :
    (∀ earlier q later, ps ++ [s] = earlier ++ q :: later → P q later) ↔
      P s [] ∧ ∀ earlier q later, ps = earlier ++ q :: later → P q (later ++ [s]) := by
  constructor
  · intro h
    refine ⟨h ps s [] rfl, fun earlier q later heq => h earlier q (later ++ [s]) ?_⟩
    rw [heq, List.append_assoc, List.cons_append]
  · rintro ⟨hlast, h⟩ earlier q later heq
    rcases List.eq_nil_or_concat later with rfl | ⟨later', s', rfl⟩
    · obtain ⟨-, hs⟩ := List.append_inj' heq rfl
      rw [← List.singleton_inj.mp hs]
      exact hlast
    · rw [List.concat_eq_append, ← List.cons_append, ← List.append_assoc] at heq
      obtain ⟨hps, hs⟩ := List.append_inj' heq rfl
      rw [List.concat_eq_append, ← List.singleton_inj.mp hs]
      exact h earlier q later' hps

/-- **No data since the last packet with an id** just if all data is followed by one. -/
theorem chunks_sinceLast_eq_nil {id : UInt8} (hid : id ≠ 0x03) (ps : List Packet) :
    chunks (sinceLast id ps) = [] ↔
      ∀ earlier q later, ps = earlier ++ q :: later → chunk q ≠ [] → ∃ s ∈ later, s.1 = id := by
  induction ps using List.reverseRecOn with
  | nil => exact iff_of_true rfl (fun earlier q later h => absurd h (by simp))
  | append_singleton ps s ih =>
      rw [chunks_sinceLast_concat, forall_behind_concat]
      by_cases hs : s.1 = id
      · have hempty : chunk s = [] := chunk_of_ne (hs ▸ hid)
        rw [if_pos hs]
        refine iff_of_true rfl ⟨fun h => absurd hempty h, fun earlier q later _ _ => ?_⟩
        exact ⟨s, List.mem_append_right _ List.mem_cons_self, hs⟩
      · have hmem : ∀ later : List Packet, (∃ a ∈ later ++ [s], a.1 = id) ↔ ∃ a ∈ later, a.1 = id := by
          intro later
          simp [hs]
        rw [if_neg hs, List.append_eq_nil_iff, ih]
        simp only [hmem, List.not_mem_nil, false_and, exists_false, imp_false, ne_eq, not_not]
        exact and_comm

/-- All data is followed by the beginning of a level just if it is followed by the end of one. -/
def BothOrNeither (ps : List Packet) : Prop :=
  ∀ earlier q later, ps = earlier ++ q :: later → chunk q ≠ [] →
    ((∃ s ∈ later, s.1 = 0x02) ↔ ∃ s ∈ later, s.1 = 0x04)

/-- **The data since the last end of a level is the data since the last beginning** just if no data lies between. -/
theorem chunks_since_eq_iff (ps : List Packet) :
    chunks (sinceLast 0x04 ps) = chunks (sinceLast 0x02 ps) ↔ BothOrNeither ps := by
  induction ps using List.reverseRecOn with
  | nil => exact iff_of_true rfl (fun earlier q later h => absurd h (by simp))
  | append_singleton ps s ih =>
      unfold BothOrNeither
      rw [chunks_sinceLast_concat, chunks_sinceLast_concat, forall_behind_concat]
      have hbehind : ∀ (id : UInt8) (later : List Packet), (∃ a ∈ later ++ [s], a.1 = id) ↔
          (∃ a ∈ later, a.1 = id) ∨ s.1 = id := by
        intro id later
        simp [or_and_right, exists_or]
      have hself : chunk s ≠ [] →
          ((∃ a ∈ ([] : List Packet), a.1 = 0x02) ↔ ∃ a ∈ ([] : List Packet), a.1 = 0x04) := by
        intro _
        simp
      simp only [hbehind]
      by_cases h4 : s.1 = 0x04
      · -- everything is followed by an end now, so it has to be followed by a beginning, too
        have h2 : s.1 ≠ 0x02 := by
          rw [h4]
          decide
        rw [if_pos h4, if_neg h2, chunk_of_ne (by rw [h4]; decide), List.append_nil, eq_comm,
          chunks_sinceLast_eq_nil (by decide)]
        simp only [h4, or_true, iff_true, show ((0x04 : UInt8) = 0x02) = False by decide, or_false]
        exact ⟨fun h => ⟨fun hne => absurd rfl hne, h⟩, And.right⟩
      by_cases h2 : s.1 = 0x02
      · rw [if_neg h4, if_pos h2, chunk_of_ne (by rw [h2]; decide), List.append_nil,
          chunks_sinceLast_eq_nil (by decide)]
        simp only [h2, or_true, true_iff, show ((0x02 : UInt8) = 0x04) = False by decide, or_false]
        exact ⟨fun h => ⟨fun hne => absurd rfl hne, h⟩, And.right⟩
      · rw [if_neg h4, if_neg h2, List.append_cancel_right_eq, ih]
        simp only [h4, h2, or_false]
        exact ⟨fun h => ⟨hself, h⟩, And.right⟩

/-! ## The accumulator -/

/-- The accumulator: what has been collected, and the size that is kept beside it. -/
def accumulator (t : Tunnel) : Bytes × Int := (t.mapC, t.mapSize)

/-- What a packet does to the accumulator. -/
def accumulate (a : Bytes × Int) (q : Packet) : Bytes × Int :=
  if q.1 = 0x04 then ([], 0)
  else if q.1 = 0x03 then (a.1 ++ chunk q, int32 (a.2 + (chunk q).length))
  else a

section Step

variable {env : Env} {q : Packet} {t : Tunnel}

/-- A complete piece has the data it says. -/
theorem length_chunk (h : LevelChunk q.2) (hid : q.1 = 0x03) : ((chunk q).length : Int) = chunkLength q.2 := by
  obtain ⟨hpos, hlen⟩ := h
  unfold chunk field
  rw [if_pos hid, List.length_take, List.length_drop]
  omega

/-- **What the code does to the accumulator.** -/
theorem accumulator_received (hfrom : FromServer t.modes q) :
    accumulator (received env q t) = accumulate (accumulator t) q := by
  rcases received_cases env q t with ⟨hid, ht⟩ | ⟨f, hf, ht⟩
  · have h3 : q.1 ≠ 0x03 := fun h => hid (h ▸ by decide)
    have h4 : q.1 ≠ 0x04 := fun h => hid (h ▸ by decide)
    rw [ht, accumulate, if_neg h4, if_neg h3]
  · obtain ⟨id, payload⟩ := q
    rw [ht]
    by_cases h3 : id = 0x03
    · subst h3
      have hchunk : LevelChunk payload := hfrom
      obtain rfl : f = fun t => { t with
          mapSize := int32 (t.mapSize + chunkLength payload)
          mapC := t.mapC ++ field payload 2 (chunkLength payload).toNat } := by
        simpa [effects] using hf
      have hlen := length_chunk (q := (0x03, payload)) hchunk rfl
      rw [accumulate, if_neg (show ¬ ((0x03 : UInt8) = 0x04) by decide), hlen]
      rfl
    by_cases h4 : id = 0x04
    · subst h4
      obtain rfl : f = fun t => inflated env (resized payload t) := by simpa [effects] using hf
      rfl
    -- no other effect touches the two fields
    have hsame : accumulator (f t) = accumulator t := by
      simp only [effects, List.mem_cons, Prod.mk.injEq, List.not_mem_nil, or_false, h3, h4, false_and,
        false_or] at hf
      rcases hf with ⟨rfl, rfl⟩ | ⟨rfl, rfl⟩ | ⟨rfl, rfl⟩ | ⟨rfl, rfl⟩ | ⟨rfl, rfl⟩ | ⟨rfl, rfl⟩ | ⟨rfl, rfl⟩ |
        ⟨rfl, rfl⟩ | ⟨rfl, rfl⟩ | ⟨rfl, rfl⟩ | ⟨rfl, rfl⟩ | ⟨rfl, rfl⟩ <;> rfl
    rw [hsame, accumulate, if_neg h4, if_neg h3]

end Step

/-- An accumulator that was empty has the data since the last end of a level, and its size in an `int`. -/
theorem foldl_accumulate (ps : List Packet) : ps.foldl accumulate ([], 0) =
    (chunks (sinceLast 0x04 ps), int32 (chunks (sinceLast 0x04 ps)).length) := by
  induction ps using List.reverseRecOn with
  | nil => rfl
  | append_singleton ps q ih =>
      rw [List.foldl_append, ih, List.foldl_cons, List.foldl_nil, accumulate, chunks_sinceLast_concat]
      by_cases h4 : q.1 = 0x04
      · rw [if_pos h4, if_pos h4]
        rfl
      rw [if_neg h4, if_neg h4]
      by_cases h3 : q.1 = 0x03
      · rw [if_pos h3, int32_add, List.length_append, Nat.cast_add]
      · rw [if_neg h3, chunk_of_ne h3, List.append_nil]

/-- **What has been collected**, at every moment of a run from an empty accumulator. -/
theorem accumulator_found {env : Env} (r : ServerRun env) (hstart : accumulator r.state = ([], 0))
    (hothers : ∀ f ∈ r.others, ∀ t, accumulator (f t) = accumulator t) {k : Nat} (hk : k ≤ r.packets.length) :
    accumulator (r.found k) = (chunks (sinceLast 0x04 (r.packets.take k)),
      int32 (chunks (sinceLast 0x04 (r.packets.take k))).length) := by
  rw [r.found_of_kept hothers, r.view_eq_foldl _ _ hothers (fun q _ t hfrom => accumulator_received hfrom) hk, hstart,
    foldl_accumulate]

/-- How much has been collected before packet `k`. -/
def collected {env : Env} (r : ServerRun env) (k : Nat) : Nat := (chunks (sinceLast 0x04 (r.packets.take k))).length

section Collected

variable {env : Env} {r : ServerRun env} {k : Nat}

theorem collected_succ (hk : k < r.packets.length) : collected r (k + 1) =
    if r.packets[k].1 = 0x04 then 0 else collected r k + (chunk r.packets[k]).length := by
  unfold collected
  rw [List.take_succ_eq_append_getElem hk, chunks_sinceLast_concat]
  split
  · rfl
  · exact List.length_append

/-- At a piece an `int` can count what has been collected, and the length of the piece twice more. -/
def Counted (r : ServerRun env) (k : Nat) (hk : k < r.packets.length) : Prop :=
  r.packets[k].1 = 0x03 → collected r k + 2 * (chunk r.packets[k]).length < 2 ^ 31

/-- As long as the pieces could be counted, an `int` counts what has been collected. -/
theorem collected_lt (h : ∀ j (hj : j < r.packets.length), j < k → Counted r j hj) (hk : k ≤ r.packets.length) :
    collected r k < 2 ^ 31 := by
  induction k with
  | zero => exact Nat.two_pow_pos 31
  | succ k ih =>
      have hbefore : collected r k < 2 ^ 31 := ih (fun j hj hjk => h j hj (by omega)) (by omega)
      have hlast := h k hk (Nat.lt_succ_self k)
      rw [collected_succ hk]
      split
      · decide
      · by_cases h3 : r.packets[k].1 = 0x03
        · have hcounted := hlast h3
          omega
        · rw [chunk_of_ne h3]
          exact hbefore

end Collected

/-- What the claim on level data says of packet `k`: at the end of a level `mapC` and `mapSize` are the data since the
    last end and its length, and are empty afterwards; each piece is stored in memory that has been asked for, and
    passed on as it came. -/
structure Accumulates {env : Env} (r : ServerRun env) (k : Nat) (hk : k < r.packets.length) : Prop where
  ends : r.packets[k].1 = 0x04 → (r.found k).mapC = chunks (sinceLast 0x04 (r.packets.take k)) ∧
    (r.found k).mapSize = collected r k ∧ (r.after (k + 1)).mapC = [] ∧ (r.after (k + 1)).mapSize = 0
  sizes : r.packets[k].1 = 0x03 → ∀ n ∈ levelDataSizes r.packets[k].2 (r.found k), 0 ≤ n
  relayed : r.packets[k].1 = 0x03 → r.relayed (k + 1) = r.relayed k ++ r.packets[k].1 :: r.packets[k].2

/-- **What `mapC` and `mapSize` are**, at every moment. -/
theorem map_found {env : Env} {r : ServerRun env} (hstart : accumulator r.state = ([], 0))
    (hothers : ∀ f ∈ r.others, ∀ t, accumulator (f t) = accumulator t) {k : Nat} (hk : k ≤ r.packets.length) :
    (r.found k).mapC = chunks (sinceLast 0x04 (r.packets.take k)) ∧ (r.found k).mapSize = int32 (collected r k) := by
  have hfound := accumulator_found r hstart hothers hk
  rw [accumulator, Prod.mk.injEq] at hfound
  exact hfound

/-- **One packet**, as long as the pieces before it could be counted. -/
theorem accumulates_iff_counted {env : Env} {r : ServerRun env} (hstart : accumulator r.state = ([], 0))
    (hothers : ∀ f ∈ r.others, ∀ t, accumulator (f t) = accumulator t) {k : Nat} (hk : k < r.packets.length)
    (hbefore : ∀ j (hj : j < r.packets.length), j < k → Counted r j hj) : Accumulates r k hk ↔ Counted r k hk := by
  obtain ⟨hmapC, hmapSize⟩ := map_found hstart hothers (Nat.le_of_lt hk)
  have hfrom := (r.round hk).1
  have hlt := collected_lt hbefore (Nat.le_of_lt hk)
  rw [(int32_eq_iff _).mpr hlt] at hmapSize
  have hsizes : r.packets[k].1 = 0x03 → ((∀ n ∈ levelDataSizes r.packets[k].2 (r.found k), 0 ≤ n) ↔
      collected r k + 2 * (chunk r.packets[k]).length < 2 ^ 31) := by
    intro h3
    have hchunk : LevelChunk r.packets[k].2 := by
      unfold FromServer at hfrom
      rwa [if_pos h3] at hfrom
    have hlen := length_chunk hchunk h3
    rw [levelDataSizes_nonneg hchunk.1 (by omega) (by omega), hmapSize]
    omega
  constructor
  · intro h h3
    exact (hsizes h3).mp (h.sizes h3)
  · intro h
    refine ⟨fun h4 => ?_, fun h3 => (hsizes h3).mpr (h h3), fun h3 => ?_⟩
    · have hempty : accumulator (r.after (k + 1)) = ([], 0) := by
        rw [r.after_succ hk, accumulator_received hfrom, accumulate, if_pos h4]
      exact ⟨hmapC, hmapSize, congrArg Prod.fst hempty, congrArg Prod.snd hempty⟩
    · generalize hq : r.packets[k] = q at h3 hfrom ⊢
      obtain ⟨id, payload⟩ := q
      obtain rfl : id = 0x03 := h3
      obtain ⟨out, htakes, hout⟩ := takes_levelData env (r.found k) hfrom
      rw [r.relayed_of_handler hk hq (own_mem (by repeat constructor)) htakes, hout]

end Client

/-- **Level data is accumulated.** In a run from an empty accumulator that nobody else touches, the packets before `n`
    are treated as they should be just if at each piece among them an `int` can count the data since the last end of a
    level, and the length of the piece twice more. -/
theorem level_accumulates_iff (env : Env) (r : ServerRun env) (hstart : Client.accumulator r.state = ([], 0))
    (hothers : ∀ f ∈ r.others, ∀ t, Client.accumulator (f t) = Client.accumulator t) (n : Nat) :
    (∀ k (hk : k < r.packets.length), k < n → Client.Accumulates r k hk) ↔
      ∀ k (hk : k < r.packets.length), k < n → Client.Counted r k hk := by
  -- one packet after the other: the first one that cannot be counted is not treated as it should be
  induction n with
  | zero => exact iff_of_true (fun k hk h => absurd h (Nat.not_lt_zero k)) fun k hk h => absurd h (Nat.not_lt_zero k)
  | succ n ih =>
      have hsplit : ∀ P : ∀ k, k < r.packets.length → Prop, (∀ k (hk : k < r.packets.length), k < n + 1 → P k hk) ↔
          (∀ k (hk : k < r.packets.length), k < n → P k hk) ∧ ∀ hn : n < r.packets.length, P n hn := by
        intro P
        refine ⟨fun h => ⟨fun k hk hkn => h k hk (by omega), fun hn => h n hn (Nat.lt_succ_self n)⟩, ?_⟩
        rintro ⟨hbefore, hlast⟩ k hk hkn
        rcases Nat.lt_succ_iff_lt_or_eq.mp hkn with hkn | rfl
        · exact hbefore k hk hkn
        · exact hlast hk
      rw [hsplit (Client.Accumulates r), hsplit (Client.Counted r), ih]
      refine and_congr_right fun hbefore => forall_congr' fun hn => ?_
      exact Client.accumulates_iff_counted hstart hothers hn hbefore

/-- A piece with one byte of data. -/
def pieceSeven : Packet := (0x03, [0, 1, 7] ++ List.replicate 1023 0 ++ [100])

/-- The end of a level of one block. -/
def oneBlockEnds : Packet := (0x04, [0, 1, 0, 1, 0, 1])

theorem noKick_arrives : ∀ p ∈ ([(0x02, []), pieceSeven, oneBlockEnds] : List Packet).dropLast, p.1 ≠ 0x0e := by
  decide

theorem fromServer_arrives : ∀ p ∈ ([(0x02, []), pieceSeven, oneBlockEnds] : List Packet),
    FromServer ({} : Tunnel).modes p ∧ p.1 ≠ 0x11 := by
  decide +kernel

/-- A level in one piece. -/
def levelArrives : ServerRun {} :=
  .alone {} ServerRun.endDocumented_default [(0x02, []), pieceSeven, oneBlockEnds] {} noKick_arrives
    fromServer_arrives

theorem accumulator_others {ps : List Packet} :
    ∀ f ∈ List.replicate ps.length (id : Tunnel → Tunnel), ∀ t,
      Client.accumulator (f t) = Client.accumulator t := by
  intro f hf t
  rw [List.eq_of_mem_replicate hf]
  rfl

/-- The byte is collected. -/
theorem level_accumulates_seven : (levelArrives.found 2).mapC = [7] := by
  have hcounted : ∀ k (hk : k < levelArrives.packets.length), k < 3 → Client.Counted levelArrives k hk := by
    intro k hk hk3
    have hall : ∀ k : Fin 3, Client.collected levelArrives k + 2 * (Client.chunk (levelArrives.packets[k])).length <
        2 ^ 31 := by
      decide +kernel
    exact fun _ => hall ⟨k, hk3⟩
  have h := (level_accumulates_iff {} levelArrives rfl accumulator_others 3).mpr hcounted 2 (by decide) (by decide)
  exact (h.ends rfl).1.trans (by decide +kernel)

/-- A piece that is full. -/
def pieceFull : Packet := (0x03, [4, 0] ++ List.replicate 1024 0 ++ [100])

/-- A level in `n` pieces that are full. -/
def fullPackets (n : Nat) : List Packet := List.replicate n pieceFull ++ [oneBlockEnds]

theorem noKick_full (n : Nat) : ∀ p ∈ (fullPackets n).dropLast, p.1 ≠ 0x0e := by
  intro p hp
  unfold fullPackets at hp
  rw [List.dropLast_concat] at hp
  rw [List.eq_of_mem_replicate hp]
  decide

theorem fromServer_full (n : Nat) : ∀ p ∈ fullPackets n, FromServer ({} : Tunnel).modes p ∧ p.1 ≠ 0x11 := by
  intro p hp
  rcases List.mem_append.mp hp with hp | hp
  · rw [List.eq_of_mem_replicate hp]
    decide +kernel
  · rw [List.mem_singleton.mp hp]
    decide

def levelFull (n : Nat) : ServerRun {} :=
  .alone {} ServerRun.endDocumented_default (fullPackets n) {} (noKick_full n) (fromServer_full n)

theorem packet_full {n k : Nat} (h : k < n) :
    ∃ hk : k < (levelFull n).packets.length, (levelFull n).packets[k] = pieceFull := by
  have hpackets : (levelFull n).packets = List.replicate n pieceFull ++ [oneBlockEnds] := rfl
  have hk : k < (levelFull n).packets.length := by
    rw [hpackets, List.length_append, List.length_replicate]
    omega
  refine ⟨hk, ?_⟩
  rw [List.getElem_of_eq hpackets, List.getElem_append_left (by rwa [List.length_replicate]), List.getElem_replicate]

/-- What has been collected before a piece. -/
theorem collected_full {n k : Nat} (h : k ≤ n) : Client.collected (levelFull n) k = k * 1024 := by
  have htake : (levelFull n).packets.take k = List.replicate k pieceFull := by
    show (List.replicate n pieceFull ++ [oneBlockEnds]).take k = _
    rw [List.take_append_of_le_length (by rwa [List.length_replicate]), List.take_replicate, min_eq_left h]
  have hall : Client.sinceLast 0x04 (List.replicate k pieceFull) = List.replicate k pieceFull := by
    unfold Client.sinceLast
    rw [List.takeWhile_eq_self_iff.mpr, List.reverse_reverse]
    intro q hq
    rw [List.eq_of_mem_replicate (List.mem_reverse.mp hq)]
    decide
  have hchunk : (Client.chunk pieceFull).length = 1024 := by decide +kernel
  have hlen : ∀ n, (Client.chunks (List.replicate n pieceFull)).length = n * 1024 := by
    intro n
    unfold Client.chunks
    induction n with
    | zero => rfl
    | succ n ih =>
        rw [List.replicate_succ, List.flatMap_cons, List.length_append, hchunk, ih, Nat.succ_mul, Nat.add_comm]
  unfold Client.collected
  rw [htake, hall, hlen]

/-- At the last piece before two gigabytes `realloc` is asked for less than no memory. -/
theorem size_overflows : ¬ ∀ (env : Env) (r : ServerRun env), Client.accumulator r.state = ([], 0) →
    (∀ f ∈ r.others, ∀ t, Client.accumulator (f t) = Client.accumulator t) →
      ∀ k (hk : k < r.packets.length), Client.Accumulates r k hk := by
  intro hall
  obtain ⟨hk, hpiece⟩ := packet_full (Nat.lt_succ_self (2 ^ 21 - 2))
  have hclaimed := hall {} (levelFull (2 ^ 21 - 2 + 1)) rfl accumulator_others _ hk
  have hsizes := hclaimed.sizes (by rw [hpiece]; rfl)
  rw [hpiece] at hsizes
  -- the pieces before this one have filled the `int` up to two more
  obtain ⟨-, hmapSize⟩ := Client.map_found (r := levelFull (2 ^ 21 - 2 + 1)) rfl accumulator_others (Nat.le_of_lt hk)
  rw [collected_full (Nat.le_succ _), int32_of_range (by omega) (by omega)] at hmapSize
  have hlength : chunkLength pieceFull.2 = 1024 := by decide +kernel
  rw [Client.levelDataSizes_nonneg (by rw [hlength]; decide) (by rw [hmapSize]; omega)
    (by rw [hmapSize]; omega), hmapSize, hlength] at hsizes
  exact absurd hsizes (by omega)

/-- **A level without the bytes of another one.** In a run from an empty accumulator that nobody else touches, at
    every end of a level what is inflated is the data since the last beginning just if, every time, all data was
    followed by a beginning and an end or by neither. -/
theorem level_unbroken_iff (env : Env) (r : ServerRun env) (hstart : Client.accumulator r.state = ([], 0))
    (hothers : ∀ f ∈ r.others, ∀ t, Client.accumulator (f t) = Client.accumulator t) :
    (∀ k (hk : k < r.packets.length), r.packets[k].1 = 0x04 →
        (r.found k).mapC = Client.chunks (Client.sinceLast 0x02 (r.packets.take k))) ↔
      ∀ k (hk : k < r.packets.length), r.packets[k].1 = 0x04 → Client.BothOrNeither (r.packets.take k) := by
  refine forall₂_congr fun k hk => forall_congr' fun _ => ?_
  have hfound := congrArg Prod.fst (Client.accumulator_found r hstart hothers (Nat.le_of_lt hk))
  rw [show (r.found k).mapC = _ from hfound]
  exact Client.chunks_since_eq_iff _

/-- A level in one piece is unbroken. -/
theorem level_unbroken_seven : (∀ k (hk : k < levelArrives.packets.length), levelArrives.packets[k].1 = 0x04 →
      (levelArrives.found k).mapC = Client.chunks (Client.sinceLast 0x02 (levelArrives.packets.take k))) ↔
    ∀ k (hk : k < levelArrives.packets.length), levelArrives.packets[k].1 = 0x04 →
      Client.BothOrNeither (levelArrives.packets.take k) :=
  level_unbroken_iff {} levelArrives rfl accumulator_others

theorem noKick_abandoned :
    ∀ p ∈ ([(0x02, []), pieceSeven, (0x02, []), oneBlockEnds] : List Packet).dropLast, p.1 ≠ 0x0e := by
  decide

theorem fromServer_abandoned : ∀ p ∈ ([(0x02, []), pieceSeven, (0x02, []), oneBlockEnds] : List Packet),
    FromServer ({} : Tunnel).modes p ∧ p.1 ≠ 0x11 := by
  decide +kernel

/-- A level is given up after its first piece, and another one without data follows. -/
def levelAbandoned : ServerRun {} :=
  .alone {} ServerRun.endDocumented_default [(0x02, []), pieceSeven, (0x02, []), oneBlockEnds] {} noKick_abandoned
    fromServer_abandoned

/-- The byte of the first level is inflated for the second one. -/
theorem level_broken : ¬ ∀ (env : Env) (r : ServerRun env), Client.accumulator r.state = ([], 0) →
    (∀ f ∈ r.others, ∀ t, Client.accumulator (f t) = Client.accumulator t) →
      ∀ k (hk : k < r.packets.length), r.packets[k].1 = 0x04 →
        (r.found k).mapC = Client.chunks (Client.sinceLast 0x02 (r.packets.take k)) := by
  intro hall
  have hclaimed := hall {} levelAbandoned rfl accumulator_others 3 (by decide) rfl
  have hlen : 3 ≤ levelAbandoned.packets.length := by decide
  have hfound := Client.accumulator_found levelAbandoned rfl accumulator_others hlen
  rw [Client.accumulator, Prod.mk.injEq] at hfound
  rw [hfound.1] at hclaimed
  exact absurd hclaimed (by decide +kernel)

end LavaTunnel
