import LavaTunnel.Scan.Box
import Mathlib

/-!
# `Scan.Index` — numbering the cells of a box

A box of `a * b * c` cells is stored in an array, the `x` coordinate running fastest, then `z`, then `y`.
The index is a number with three digits in mixed radix, so every cell has its own index and every index
below the volume is used (`bijOn_index`).
-/

namespace Scan

/-- The cells with coordinates from zero, `a` wide, `b` high and `c` deep. -/
def grid (a b c : Int) : Set Cell :=
  {p | (0 ≤ p.x ∧ p.x < a) ∧ (0 ≤ p.y ∧ p.y < b) ∧ (0 ≤ p.z ∧ p.z < c)}

/-- The index of a cell. -/
def index (a c : Int) (p : Cell) : Int := (p.y * c + p.z) * a + p.x

/-- The last digit and the number before it are determined. -/
theorem digit_unique {k q q' r r' : Int} (hr : 0 ≤ r ∧ r < k) (hr' : 0 ≤ r' ∧ r' < k)
    (h : q * k + r = q' * k + r') : q = q' ∧ r = r' := by
  have hk : 0 < k := by omega
  have hq : ∀ q r : Int, 0 ≤ r ∧ r < k → (q * k + r) / k = q := by
    intro q r hr
    rw [add_comm, Int.add_mul_ediv_right _ _ hk.ne', Int.ediv_eq_zero_of_lt hr.1 hr.2, zero_add]
  have hqq : q = q' := by rw [← hq q r hr, ← hq q' r' hr', h]
  subst hqq
  exact ⟨rfl, by linarith⟩

/-- A number with digits below `k` stays below `n * k` if what is before the last digit is below `n`. -/
theorem digit_lt {k n q r : Int} (hq : 0 ≤ q ∧ q < n) (hr : 0 ≤ r ∧ r < k) :
    0 ≤ q * k + r ∧ q * k + r < n * k := by
  have hk : 0 ≤ k := by omega
  have h₁ : 0 ≤ q * k := mul_nonneg hq.1 hk
  have h₂ : (q + 1) * k ≤ n * k := mul_le_mul_of_nonneg_right (by omega) hk
  have h₃ : (q + 1) * k = q * k + k := by ring
  omega

theorem mapsTo_index (a b c : Int) : Set.MapsTo (index a c) (grid a b c) (Set.Ico 0 (a * b * c)) := by
  rintro p ⟨hx, hy, hz⟩
  have h := digit_lt (digit_lt hy hz) hx
  have hvol : b * c * a = a * b * c := by ring
  exact ⟨h.1, by rw [← hvol]; exact h.2⟩

theorem injOn_index (a b c : Int) : Set.InjOn (index a c) (grid a b c) := by
  rintro ⟨x, y, z⟩ ⟨hx, hy, hz⟩ ⟨x', y', z'⟩ ⟨hx', hy', hz'⟩ h
  obtain ⟨hq, rfl⟩ := digit_unique hx hx' h
  obtain ⟨rfl, rfl⟩ := digit_unique hz hz' hq
  rfl

theorem surjOn_index {a b c : Int} (ha : 0 < a) (hc : 0 < c) :
    Set.SurjOn (index a c) (grid a b c) (Set.Ico 0 (a * b * c)) := by
  rintro n ⟨hn, hlt⟩
  have hq : 0 ≤ n / a := Int.ediv_nonneg hn ha.le
  have hy : n / a / c < b := by
    apply Int.ediv_lt_of_lt_mul hc
    apply Int.ediv_lt_of_lt_mul ha
    calc n < a * b * c := hlt
      _ = b * c * a := by ring
  refine ⟨⟨n % a, n / a / c, n / a % c⟩, ⟨⟨Int.emod_nonneg n ha.ne', Int.emod_lt_of_pos n ha⟩,
    ⟨Int.ediv_nonneg hq hc.le, hy⟩, Int.emod_nonneg _ hc.ne', Int.emod_lt_of_pos _ hc⟩, ?_⟩
  show (n / a / c * c + n / a % c) * a + n % a = n
  rw [Int.ediv_mul_add_emod, Int.ediv_mul_add_emod]

/-- **The index numbers the cells.** -/
theorem bijOn_index {a b c : Int} (ha : 0 < a) (hc : 0 < c) :
    Set.BijOn (index a c) (grid a b c) (Set.Ico 0 (a * b * c)) :=
  ⟨mapsTo_index a b c, injOn_index a b c, surjOn_index ha hc⟩

end Scan
