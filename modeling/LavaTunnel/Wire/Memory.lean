import LavaTunnel.Wire.Prog
import Mathlib.Algebra.Group.Nat.Defs
import Mathlib.Data.List.TakeWhile

/-!
# `Wire.Memory` — the memory of a process, and the string functions of C over it

A pointer is an address, and two pointers may point into each other's buffers. So a function that is handed two of
them is a function of the memory, and what it does to a buffer depends on where the other one lies.

A copy from front to back reads what it has not written yet as long as the destination does not begin inside the
source (`strncpy_eq_store`). Nothing here knows a program.
-/

namespace Wire

/-- The memory of a process, from its first byte on. There is less than 2 GiB of it, as a process of 32 bits has it:
    a length in it is an `int`. -/
@[ext] structure Memory where
  bytes : Bytes
  small : bytes.length < 2 ^ 31

namespace Memory

/-- The number of bytes. -/
def size (m : Memory) : Nat := m.bytes.length

/-- The `n` bytes from `a` on. -/
def load (m : Memory) (a n : Nat) : Bytes := (m.bytes.drop a).take n

/-- Write `bs` from `a` on. -/
def store (m : Memory) (a : Nat) (bs : Bytes) : Memory where
  bytes := m.bytes.take a ++ bs.take (m.bytes.length - a) ++ m.bytes.drop (a + bs.length)
  small := by
    have hsmall := m.small
    simp only [List.length_append, List.length_take, List.length_drop]
    omega

/-- `memset`. -/
def memset (m : Memory) (destination : Nat) (c : UInt8) (n : Nat) : Memory := m.store destination (List.replicate n c)

/-- `strlen`. -/
def strlen (m : Memory) (s : Nat) : Nat := ((m.bytes.drop s).takeWhile (· ≠ 0)).length

/-- The addresses `strlen` reads: the string, and its terminator. -/
def strlenReads (m : Memory) (s : Nat) : List Nat := List.range' s (m.strlen s + 1)

/-- `strncpy`, from front to back. After a terminator the rest is zeros. -/
def strncpy : Nat → Memory → Nat → Nat → Memory
  | 0, m, _, _ => m
  | n + 1, m, destination, source =>
      let c := m.bytes.getD source 0
      if c = 0 then m.store destination (List.replicate (n + 1) 0)
      else strncpy n (m.store destination [c]) (destination + 1) (source + 1)

/-- The addresses of the source that `strncpy` reads. -/
def strncpyReads (n : Nat) (m : Memory) (source : Nat) : List Nat :=
  List.range' source (min n (m.strlen source + 1))

variable {m : Memory} {a b n : Nat} {xs ys : Bytes}

/-! ## Loads and stores -/

theorem bytes_store (m : Memory) (a : Nat) (xs : Bytes) : (m.store a xs).bytes =
    m.bytes.take a ++ xs.take (m.bytes.length - a) ++ m.bytes.drop (a + xs.length) := rfl

theorem getElem?_store : (m.store a xs).bytes[b]? =
    if a ≤ b ∧ b < a + xs.length ∧ b < m.size then xs[b - a]? else m.bytes[b]? := by
  rw [bytes_store]
  unfold size
  by_cases hsize : b < m.bytes.length
  · rcases Nat.lt_or_ge b a with hlow | hlow
    · rw [if_neg (by omega), List.append_assoc, List.getElem?_append_left (by simp; omega),
        List.getElem?_take_of_lt hlow]
    · rcases Nat.lt_or_ge b (a + xs.length) with hhigh | hhigh
      · rw [if_pos ⟨hlow, hhigh, hsize⟩, List.append_assoc, List.getElem?_append_right (by simp; omega),
          List.getElem?_append_left (by simp; omega), List.getElem?_take_of_lt (by simp; omega)]
        congr 1
        simp only [List.length_take]
        omega
      · rw [if_neg (by omega), List.getElem?_append_right (by simp; omega), List.getElem?_drop]
        congr 1
        simp only [List.length_append, List.length_take]
        omega
  · rw [if_neg (by omega), List.getElem?_eq_none (by simp; omega), List.getElem?_eq_none (by omega)]

theorem ext_getElem? {m m' : Memory} (h : ∀ i : Nat, m.bytes[i]? = m'.bytes[i]?) : m = m' :=
  Memory.ext (List.ext_getElem? h)

@[simp] theorem size_store (m : Memory) (a : Nat) (xs : Bytes) : (m.store a xs).size = m.size := by
  unfold size store
  simp only [List.length_append, List.length_take, List.length_drop]
  omega

@[simp] theorem size_memset (m : Memory) (a : Nat) (c : UInt8) (n : Nat) : (m.memset a c n).size = m.size :=
  size_store m a _

theorem getElem?_load : (m.load a n)[b]? = if b < n then m.bytes[a + b]? else none := by
  unfold load
  rw [List.getElem?_take, List.getElem?_drop]

theorem length_load (h : a + n ≤ m.size) : (m.load a n).length = n := by
  unfold load
  unfold size at h
  rw [List.length_take, List.length_drop]
  omega

@[simp] theorem store_nil (m : Memory) (a : Nat) : m.store a [] = m := by
  apply ext_getElem?
  intro i
  rw [getElem?_store, if_neg (by rw [List.length_nil]; omega)]

/-- Two stores next to each other are one. -/
theorem store_store : (m.store a xs).store (a + xs.length) ys = m.store a (xs ++ ys) := by
  apply ext_getElem?
  intro i
  rw [getElem?_store, getElem?_store, getElem?_store, size_store, List.length_append]
  by_cases hsize : i < m.size
  · rcases Nat.lt_or_ge i a with hlow | hlow
    · rw [if_neg (by omega), if_neg (by omega), if_neg (by omega)]
    · rcases Nat.lt_or_ge i (a + xs.length) with hmid | hmid
      · rw [if_neg (by omega), if_pos ⟨hlow, hmid, hsize⟩, if_pos ⟨hlow, by omega, hsize⟩,
          List.getElem?_append_left (by omega)]
      · rcases Nat.lt_or_ge i (a + xs.length + ys.length) with hhigh | hhigh
        · rw [if_pos ⟨hmid, hhigh, hsize⟩, if_pos ⟨hlow, by omega, hsize⟩, List.getElem?_append_right (by omega),
            Nat.sub_add_eq]
        · rw [if_neg (by omega), if_neg (by omega), if_neg (by omega)]
  · rw [if_neg (by omega), if_neg (by omega), if_neg (by omega)]

/-- A shorter store over another leaves the rest of it. -/
theorem store_over (h : ys.length ≤ xs.length) : (m.store a xs).store a ys = m.store a (ys ++ xs.drop ys.length) := by
  apply ext_getElem?
  intro i
  rw [getElem?_store, getElem?_store, getElem?_store, size_store, List.length_append, List.length_drop,
    Nat.add_sub_cancel' h]
  by_cases hin : a ≤ i ∧ i < a + xs.length ∧ i < m.size
  · obtain ⟨hlow, hhigh, hsize⟩ := hin
    by_cases hy : i < a + ys.length
    · rw [if_pos ⟨hlow, hy, hsize⟩, if_pos ⟨hlow, hhigh, hsize⟩, List.getElem?_append_left (by omega)]
    · rw [if_neg (by omega), if_pos ⟨hlow, hhigh, hsize⟩, if_pos ⟨hlow, hhigh, hsize⟩,
        List.getElem?_append_right (by omega), List.getElem?_drop]
      congr 1
      omega
  · rw [if_neg (by omega), if_neg hin, if_neg hin]

/-- What was stored is loaded. -/
theorem load_store (hlen : xs.length = n) (h : a + n ≤ m.size) : (m.store a xs).load a n = xs := by
  subst hlen
  apply List.ext_getElem?
  intro i
  rw [getElem?_load, getElem?_store]
  by_cases hi : i < xs.length
  · rw [if_pos hi, if_pos ⟨by omega, by omega, by omega⟩, Nat.add_sub_cancel_left]
  · rw [if_neg hi, List.getElem?_eq_none (by omega)]

/-- **A store leaves everything else alone.** -/
theorem load_store_of_apart (h : b + n ≤ a ∨ a + xs.length ≤ b) : (m.store a xs).load b n = m.load b n := by
  apply List.ext_getElem?
  intro i
  rw [getElem?_load, getElem?_load]
  by_cases hi : i < n
  · rw [if_pos hi, if_pos hi, getElem?_store, if_neg (by omega)]
  · rw [if_neg hi, if_neg hi]

/-- A store of what is there changes nothing. -/
theorem store_load (m : Memory) (a n : Nat) : m.store a (m.load a n) = m := by
  apply ext_getElem?
  intro i
  rw [getElem?_store]
  split
  · next hin =>
      obtain ⟨hlow, hhigh, -⟩ := hin
      have hn : (m.load a n).length ≤ n := List.length_take_le n _
      rw [getElem?_load, if_pos (by omega), Nat.add_sub_cancel' hlow]
  · rfl

theorem load_zero (m : Memory) (a : Nat) : m.load a 0 = [] := List.take_zero

theorem load_succ (h : a < m.size) : m.load a (n + 1) = m.bytes.getD a 0 :: m.load (a + 1) n := by
  unfold size at h
  unfold load
  rw [List.drop_eq_getElem_cons h, List.take_succ_cons, List.getD_eq_getElem?_getD, List.getElem?_eq_getElem h]
  rfl

theorem load_add (m : Memory) (a n k : Nat) : m.load a (n + k) = m.load a n ++ m.load (a + n) k := by
  unfold load
  rw [List.take_add, List.drop_drop]

theorem load_load {k : Nat} (h : k ≤ n) : (m.load a n).take k = m.load a k := by
  unfold load
  rw [List.take_take, Nat.min_eq_left h]

/-! ## Strings -/

/-- A length in memory is an `int`. -/
theorem strlen_lt (m : Memory) (s : Nat) : m.strlen s < 2 ^ 31 := by
  have hsmall := m.small
  have hle : m.strlen s ≤ (m.bytes.drop s).length := (List.takeWhile_prefix _).length_le
  rw [List.length_drop] at hle
  omega

/-- The characters of a string. -/
theorem load_strlen (m : Memory) (s : Nat) : m.load s (m.strlen s) = (m.bytes.drop s).takeWhile (· ≠ 0) :=
  (List.prefix_iff_eq_take.mp (List.takeWhile_prefix _)).symm

/-- A string that has a terminator in its first `n` bytes ends there. -/
theorem takeWhile_load (h : 0 ∈ m.load a n) :
    (m.load a n).takeWhile (· ≠ 0) = (m.bytes.drop a).takeWhile (· ≠ 0) := by
  have hnot : ¬ ((m.load a n).takeWhile (· ≠ 0)).length = (m.load a n).length := by
    intro heq
    have hall := (List.takeWhile_prefix (p := (· ≠ 0)) (l := m.load a n)).eq_of_length heq
    rw [List.takeWhile_eq_self_iff] at hall
    exact absurd (hall 0 h) (by decide)
  conv_rhs => rw [← List.take_append_drop n (m.bytes.drop a), List.takeWhile_append]
  exact (if_neg hnot).symm

/-- A full buffer without a terminator is part of a longer string. -/
theorem le_strlen (h : a + n ≤ m.size) (h0 : 0 ∉ m.load a n) : n ≤ m.strlen a := by
  unfold strlen
  rw [← List.take_append_drop n (m.bytes.drop a)]
  change n ≤ ((m.load a n ++ _).takeWhile _).length
  rw [List.takeWhile_append_of_pos (forall_ne_of_notMem h0), List.length_append, length_load h]
  exact Nat.le_add_right n _

/-- The characters of a string are not zero. -/
theorem zero_notMem_load (h : n ≤ m.strlen a) : 0 ∉ m.load a n := by
  intro h0
  have hstart : m.load a n = (m.load a (m.strlen a)).take n := (load_load h).symm
  rw [hstart, load_strlen] at h0
  exact absurd (List.mem_takeWhile_imp (List.mem_of_mem_take h0)) (by decide)

/-- **A copy of `n` characters.** It is the copy of what was in the source before, unless the destination begins
    inside the source. -/
theorem strncpy_eq_store {d s : Nat} (hapart : d ≤ s ∨ s + n ≤ d) (hs : s + n ≤ m.size) (h0 : 0 ∉ m.load s n) :
    strncpy n m d s = m.store d (m.load s n) := by
  -- the characters that are still to be copied have not been written
  induction n generalizing m d s with
  | zero => rw [load_zero, store_nil]; rfl
  | succ n ih =>
      rw [load_succ (by omega)] at h0 ⊢
      obtain ⟨hc, hrest⟩ := not_or.mp (List.mem_cons.not.mp h0)
      have hnext : (m.store d [m.bytes.getD s 0]).load (s + 1) n = m.load (s + 1) n :=
        load_store_of_apart (by simp only [List.length_singleton]; omega)
      unfold strncpy
      rw [if_neg (Ne.symm hc), ih (by omega) (by rw [size_store]; omega) (by rw [hnext]; exact hrest), hnext]
      exact store_store

end Memory

end Wire
