import Mathlib.Data.Nat.Find
import LavaTunnel.Wire.Prog

/-!
# `Wire.Partial` — the loop around a call that moves only a part

`recv` and `send` move at least one byte and at most as many as they are asked for, or they answer with zero or with
an error. The loop asks for what is missing until nothing is, or until a call moves nothing.

What the calls answer is a sequence. It alone decides with which call the loop ends (`EndsWith`), and that is within as
many calls as there are bytes (`exists_endsWith`). A socket that obeys moves no more than it is asked for (`Obeys`).
What the calls do is an invariant of the single call (`transferLoop_eq`).
-/

namespace Wire

/-- The loop: `call` is told how much was moved so far, and how much is missing. No result: out of fuel. -/
def transferLoop {W : Type} (call : Nat → Nat → W → Int × W) (size : Nat) :
    Nat → Nat → W → Option (Int × W)
  | 0, _, _ => none
  | fuel + 1, sofar, w =>
      if sofar < size then
        let r := call sofar (size - sofar) w
        if r.1 < 0 then some (-1, r.2)
        else if r.1 = 0 then some (sofar, r.2)
        else transferLoop call size fuel (sofar + r.1.toNat) r.2
      else some (sofar, w)

/-- How much the first `n` calls move. -/
def progress (answers : Nat → Int) : Nat → Nat
  | 0 => 0
  | n + 1 => progress answers n + (answers n).toNat

theorem progress_succ (answers : Nat → Int) (n : Nat) :
    progress answers (n + 1) = progress answers n + (answers n).toNat := rfl

/-- As long as the loop goes on, no call moves more than it is asked for. -/
def Obeys (answers : Nat → Int) (size : Nat) : Prop :=
  ∀ n, (∀ i < n, 0 < answers i) → progress answers n < size → answers n ≤ (size - progress answers n : Nat)

/-- The first `n` calls are made and move something, and the loop ends: nothing is missing, or the next call moves
    nothing. -/
structure EndsWith (answers : Nat → Int) (size n : Nat) : Prop where
  positive : ∀ i < n, 0 < answers i
  missing : ∀ i < n, progress answers i < size
  ends : size ≤ progress answers n ∨ answers n ≤ 0

/-- What the loop returns. -/
def exitValue (answers : Nat → Int) (size n : Nat) : Int :=
  if progress answers n < size ∧ answers n < 0 then -1 else progress answers n

/-- The calls it makes, the last one included if it moves nothing. -/
def callsMade (answers : Nat → Int) (size n : Nat) : Nat := if progress answers n < size then n + 1 else n

section Answers

variable {answers : Nat → Int} {size n : Nat}

/-- Every call that moves something moves at least a byte. -/
theorem le_progress (h : ∀ i < n, 0 < answers i) : n ≤ progress answers n := by
  induction n with
  | zero => exact Nat.zero_le _
  | succ n ih =>
      have hlast := h n (Nat.lt_succ_self n)
      have hbefore := ih (fun i hi => h i (Nat.lt_succ_of_lt hi))
      rw [progress_succ]
      omega

/-- **The loop ends**, and no later than after `size` calls. -/
theorem exists_endsWith (answers : Nat → Int) (size : Nat) : ∃ n ≤ size, EndsWith answers size n := by
  have hsome : ∃ n, ¬ (progress answers n < size ∧ 0 < answers n) := by
    by_contra hnone
    simp only [not_exists, not_not] at hnone
    have hle : size ≤ progress answers size := le_progress (fun i _ => (hnone i).2)
    have hlt := (hnone size).1
    omega
  have hbefore : ∀ i < Nat.find hsome, progress answers i < size ∧ 0 < answers i :=
    fun i hi => not_not.mp (Nat.find_min hsome hi)
  refine ⟨Nat.find hsome, ?_, fun i hi => (hbefore i hi).2, fun i hi => (hbefore i hi).1, ?_⟩
  · by_contra hlate
    have hle : size ≤ progress answers size := le_progress (fun i hi => (hbefore i (by omega)).2)
    have hlt := (hbefore size (by omega)).1
    omega
  · rcases not_and_or.mp (Nat.find_spec hsome) with h | h
    · exact Or.inl (Nat.le_of_not_lt h)
    · exact Or.inr (Int.not_lt.mp h)

namespace EndsWith

/-- No more is moved than was asked for. -/
theorem progress_le (h : EndsWith answers size n) (hobeys : Obeys answers size) : progress answers n ≤ size := by
  cases n with
  | zero => exact Nat.zero_le _
  | succ n =>
      have hmissing := h.missing n (Nat.lt_succ_self n)
      have hpos := h.positive n (Nat.lt_succ_self n)
      have hasked := hobeys n (fun i hi => h.positive i (Nat.lt_succ_of_lt hi)) hmissing
      rw [progress_succ]
      omega

/-- The exit for a call that moves nothing. -/
theorem short (h : EndsWith answers size n) (hshort : progress answers n < size) : answers n ≤ 0 :=
  h.ends.resolve_left (by omega)

end EndsWith

/-! ## The loop -/

section Loop

variable {W : Type} (call : Nat → Nat → W → Int × W) {Inv : Nat → W → Prop}
  (hcall : ∀ n w, Inv n w → (∀ i < n, 0 < answers i) → progress answers n < size →
    (call (progress answers n) (size - progress answers n) w).1 = answers n ∧
      Inv (n + 1) (call (progress answers n) (size - progress answers n) w).2)
include hcall

/-- The last round. -/
theorem transferLoop_last (hend : EndsWith answers size n) {w : W} (hw : Inv n w) :
    ∃ w', Inv (callsMade answers size n) w' ∧ ∀ fuel, 0 < fuel →
      transferLoop call size fuel (progress answers n) w = some (exitValue answers size n, w') := by
  unfold callsMade
  by_cases hshort : progress answers n < size
  · obtain ⟨hanswer, hnext⟩ := hcall n w hw hend.positive hshort
    rw [if_pos hshort]
    refine ⟨_, hnext, fun fuel hfuel => ?_⟩
    obtain ⟨fuel, rfl⟩ := Nat.exists_eq_succ_of_ne_zero (Nat.ne_of_gt hfuel)
    show (if _ then _ else _) = _
    simp only [hshort, if_true, hanswer, exitValue, true_and]
    rcases Int.lt_or_eq_of_le (hend.short hshort) with hneg | hzero
    · rw [if_pos hneg, if_pos hneg]
    · rw [if_neg (by omega), if_pos hzero, if_neg (by omega)]
  · rw [if_neg hshort]
    refine ⟨w, hw, fun fuel hfuel => ?_⟩
    obtain ⟨fuel, rfl⟩ := Nat.exists_eq_succ_of_ne_zero (Nat.ne_of_gt hfuel)
    show (if _ then _ else _) = _
    simp only [hshort, if_false, exitValue, false_and]

/-- From the `k`-th call on. -/
theorem transferLoop_from (hend : EndsWith answers size n) (d : Nat) {k : Nat} (hk : k + d = n) {w : W} (hw : Inv k w) :
    ∃ w', Inv (callsMade answers size n) w' ∧ ∀ fuel, d < fuel →
      transferLoop call size fuel (progress answers k) w = some (exitValue answers size n, w') := by
  -- one call less is left each time
  induction d generalizing k w with
  | zero =>
      obtain rfl : k = n := hk
      exact transferLoop_last call hcall hend hw
  | succ d ih =>
      have hpos := hend.positive k (by omega)
      have hshort := hend.missing k (by omega)
      obtain ⟨hanswer, hnext⟩ := hcall k w hw (fun i hi => hend.positive i (by omega)) hshort
      obtain ⟨w', hw', hrun⟩ := ih (by omega) hnext
      refine ⟨w', hw', fun fuel hfuel => ?_⟩
      obtain ⟨fuel, rfl⟩ := Nat.exists_eq_succ_of_ne_zero (by omega : fuel ≠ 0)
      show (if _ then _ else _) = _
      simp only [hshort, if_true, hanswer]
      rw [if_neg (by omega), if_neg (by omega)]
      exact hrun fuel (by omega)

/-- **The loop returns**, and leaves what its calls leave. -/
theorem transferLoop_eq (hend : EndsWith answers size n) {w : W} (hw : Inv 0 w) :
    ∃ w', Inv (callsMade answers size n) w' ∧ ∀ fuel, n < fuel →
      transferLoop call size fuel 0 w = some (exitValue answers size n, w') :=
  transferLoop_from call hcall hend n (Nat.zero_add n) hw

end Loop

/-- What the loop moved, the call that moves nothing included. -/
theorem EndsWith.progress_callsMade (h : EndsWith answers size n) :
    progress answers (callsMade answers size n) = progress answers n := by
  unfold callsMade
  by_cases hshort : progress answers n < size
  · have hstop := h.short hshort
    rw [if_pos hshort, progress_succ]
    omega
  · rw [if_neg hshort]

end Answers

end Wire
