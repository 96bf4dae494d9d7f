import LavaTunnel.Helper
import LavaTunnel.Scan.Index

/-!
# `LavaTunnel.Correctness.MapIndex` — where `calculateOffset` finds a block

`calculateOffset` multiplies `z` by `lvlz`, the depth of the level, where the index of the map takes the
width `lvlx`. On levels that are as wide as deep the two are the same, and on levels of depth one `z` is
zero; there the offset is `Scan.index` and numbers the blocks. On all other levels it does not:

* wider than deep, `(lvlz, 0, 0)` and `(0, 0, 1)` share an offset (`collision`);
* deeper than wide, the last block of the level has an offset outside the map (`outside`).
-/

namespace LavaTunnel

open Scan

/-- Block coordinates as the code passes them. -/
abbrev Coords := Int16 × Int16 × Int16

/-- The blocks of the level. -/
def Tunnel.blocks (t : Tunnel) : Set Coords :=
  {c | (0 ≤ c.1.toInt ∧ c.1.toInt < t.lvlx.toNat) ∧ (0 ≤ c.2.1.toInt ∧ c.2.1.toInt < t.lvly.toNat) ∧
    (0 ≤ c.2.2.toInt ∧ c.2.2.toInt < t.lvlz.toNat)}

/-- The number of blocks. -/
def Tunnel.volume (t : Tunnel) : Int := (t.lvlx.toNat : Int) * t.lvly.toNat * t.lvlz.toNat

/-- The offset of a block. -/
def Tunnel.offset (t : Tunnel) (c : Coords) : Int := calculateOffset t c.1 c.2.1 c.2.2

/-- A level size from the range of the protocol, with a volume an `int` can hold. -/
structure Tunnel.Sized (t : Tunnel) : Prop where
  x : 1 ≤ t.lvlx.toNat ∧ t.lvlx.toNat ≤ 32767
  y : 1 ≤ t.lvly.toNat ∧ t.lvly.toNat ≤ 32767
  z : 1 ≤ t.lvlz.toNat ∧ t.lvlz.toNat ≤ 32767
  volume : t.volume < 2 ^ 31

/-- Coordinates as a cell. -/
def cellOf (c : Coords) : Cell := ⟨c.1.toInt, c.2.1.toInt, c.2.2.toInt⟩

/-! ## What the code computes -/

/-- The intermediate results of the code may wrap, the last one decides. -/
theorem calculateOffset_eq (t : Tunnel) (x y z : Int16) :
    calculateOffset t x y z =
      int32 (y.toInt * (t.lvlx.toNat * t.lvlz.toNat) + z.toInt * t.lvlz.toNat + x.toInt) := by
  have hmul : ∀ a b : Int, int32 (a * int32 b) = int32 (a * b) := fun a b => Int.mul_bmod_bmod
  have hadd : ∀ a b : Int, int32 (int32 a + b) = int32 (a + b) := fun a b => Int.bmod_add_bmod
  unfold calculateOffset
  rw [hmul, hadd, add_assoc, hadd, add_left_comm, hadd]
  congr 1
  ring

theorem cellOf_injective : Function.Injective cellOf := by
  rintro ⟨x, y, z⟩ ⟨x', y', z'⟩ h
  simp only [cellOf, Cell.mk.injEq, Int16.toInt_inj] at h
  obtain ⟨rfl, rfl, rfl⟩ := h
  rfl

theorem cellOf_toShort {x y z : Int} (hx : 0 ≤ x ∧ x < 32768) (hy : 0 ≤ y ∧ y < 32768)
    (hz : 0 ≤ z ∧ z < 32768) : cellOf (toShort x, toShort y, toShort z) = ⟨x, y, z⟩ := by
  simp only [cellOf]
  rw [toInt_toShort (by omega) hx.2, toInt_toShort (by omega) hy.2, toInt_toShort (by omega) hz.2]

/-- The blocks of a level are the cells of its grid. -/
theorem bijOn_cellOf {t : Tunnel} (ht : t.Sized) :
    Set.BijOn cellOf t.blocks (grid t.lvlx.toNat t.lvly.toNat t.lvlz.toNat) := by
  refine ⟨fun c hc => hc, cellOf_injective.injOn, ?_⟩
  rintro ⟨x, y, z⟩ hc
  obtain ⟨hx, hy, hz⟩ := hc
  simp only at hx hy hz
  have := ht.x.2
  have := ht.y.2
  have := ht.z.2
  have heq := cellOf_toShort (x := x) (y := y) (z := z) ⟨hx.1, by omega⟩ ⟨hy.1, by omega⟩
    ⟨hz.1, by omega⟩
  refine ⟨(toShort x, toShort y, toShort z), ?_, heq⟩
  show cellOf (toShort x, toShort y, toShort z) ∈ grid _ _ _
  rw [heq]
  exact ⟨hx, hy, hz⟩

/-! ## The two failures -/

/-- A block of the level by its coordinates. -/
theorem mem_blocks {t : Tunnel} (ht : t.Sized) {x y z : Int} (hx : 0 ≤ x ∧ x < t.lvlx.toNat)
    (hy : 0 ≤ y ∧ y < t.lvly.toNat) (hz : 0 ≤ z ∧ z < t.lvlz.toNat) :
    (toShort x, toShort y, toShort z) ∈ t.blocks := by
  have := ht.x.2
  have := ht.y.2
  have := ht.z.2
  show cellOf (toShort x, toShort y, toShort z) ∈ grid _ _ _
  rw [cellOf_toShort ⟨hx.1, by omega⟩ ⟨hy.1, by omega⟩ ⟨hz.1, by omega⟩]
  exact ⟨hx, hy, hz⟩

/-- Wider than deep: the second row starts inside the first one. -/
theorem collision {t : Tunnel} (ht : t.Sized) (hz : 2 ≤ t.lvlz.toNat)
    (h : t.lvlz.toNat < t.lvlx.toNat) : ¬ Set.InjOn t.offset t.blocks := by
  intro hinj
  have hx := ht.x.2
  have hy := ht.y.1
  have h₁ := mem_blocks ht (x := t.lvlz.toNat) (y := 0) (z := 0) (by omega) (by omega) (by omega)
  have h₂ := mem_blocks ht (x := 0) (y := 0) (z := 1) (by omega) (by omega) (by omega)
  -- `(lvlz, 0, 0)` and `(0, 0, 1)` have the same index
  have heq : t.offset (toShort t.lvlz.toNat, toShort 0, toShort 0) =
      t.offset (toShort 0, toShort 0, toShort 1) := by
    simp only [Tunnel.offset, calculateOffset_eq]
    rw [toInt_toShort (n := t.lvlz.toNat) (by omega) (by omega), toInt_toShort (n := 0) (by omega) (by omega),
      toInt_toShort (n := 1) (by omega) (by omega)]
    congr 1
    ring
  have hcell := congrArg cellOf (hinj h₁ h₂ heq)
  rw [cellOf_toShort (by omega) (by omega) (by omega), cellOf_toShort (by omega) (by omega) (by omega)]
    at hcell
  have hzero : (t.lvlz.toNat : Int) = 0 := congrArg Cell.x hcell
  omega

/-- Deeper than wide: the last block lies outside the map. -/
theorem outside {t : Tunnel} (ht : t.Sized) (h : t.lvlx.toNat < t.lvlz.toNat) :
    ¬ Set.MapsTo t.offset t.blocks (Set.Ico 0 t.volume) := by
  intro hmaps
  obtain ⟨hx, hx'⟩ := ht.x
  obtain ⟨hy, hy'⟩ := ht.y
  obtain ⟨hz, hz'⟩ := ht.z
  have hlast := hmaps (mem_blocks ht (x := t.lvlx.toNat - 1) (y := t.lvly.toNat - 1)
    (z := t.lvlz.toNat - 1) (by omega) (by omega) (by omega))
  have hvol := ht.volume
  simp only [Tunnel.offset, calculateOffset_eq, Tunnel.volume] at hlast hvol
  rw [toInt_toShort (n := t.lvlx.toNat - 1) (by omega) (by omega),
    toInt_toShort (n := t.lvly.toNat - 1) (by omega) (by omega),
    toInt_toShort (n := t.lvlz.toNat - 1) (by omega) (by omega)] at hlast
  -- the offset is the volume, and what the rows are too long by, less one
  obtain ⟨extra, hextra⟩ : ∃ e : Int, e = ((t.lvlz.toNat : Int) - t.lvlx.toNat) * (t.lvlz.toNat - 1) :=
    ⟨_, rfl⟩
  have hpos : 1 * 1 ≤ extra := hextra ▸ mul_le_mul (by omega) (by omega) (by omega) (by omega)
  have hbound : extra ≤ 32767 * 32767 :=
    hextra ▸ mul_le_mul (by omega) (by omega) (by omega) (by omega)
  have heq : ((t.lvly.toNat : Int) - 1) * (t.lvlx.toNat * t.lvlz.toNat) +
      (t.lvlz.toNat - 1) * t.lvlz.toNat + (t.lvlx.toNat - 1) =
      (t.lvlx.toNat : Int) * t.lvly.toNat * t.lvlz.toNat + extra - 1 := by
    rw [hextra]
    ring
  rw [heq, Set.mem_Ico] at hlast
  by_cases hwrap : (t.lvlx.toNat : Int) * t.lvly.toNat * t.lvlz.toNat + extra - 1 < 2 ^ 31
  · rw [int32_of_range (by omega) hwrap] at hlast
    omega
  · rw [int32_of_overflow (by omega) (by omega)] at hlast
    omega

/-! ## The levels on which the offset numbers the blocks -/

/-- Where `z * lvlz` is `z * lvlx` the offset is the index. -/
theorem offset_eq_index {t : Tunnel} (ht : t.Sized)
    (h : t.lvlx = t.lvlz ∨ t.lvlz.toNat = 1) {c : Coords} (hc : c ∈ t.blocks) :
    t.offset c = index t.lvlx.toNat t.lvlz.toNat (cellOf c) := by
  -- with equal sides, or one block of depth, the wrong factor is the right one
  have hmul : c.2.2.toInt * t.lvlz.toNat = c.2.2.toInt * t.lvlx.toNat := by
    rcases h with h | h
    · rw [h]
    · obtain ⟨-, -, hz⟩ := hc
      rw [h] at hz
      have h0 : c.2.2.toInt = 0 := by omega
      rw [h0]
      ring
  have heq : c.2.1.toInt * (t.lvlx.toNat * t.lvlz.toNat) + c.2.2.toInt * t.lvlz.toNat + c.1.toInt =
      index t.lvlx.toNat t.lvlz.toNat (cellOf c) := by
    rw [hmul]
    simp only [index, cellOf]
    ring
  have hrange := mapsTo_index t.lvlx.toNat t.lvly.toNat t.lvlz.toNat ((bijOn_cellOf ht).mapsTo hc)
  have hvol := ht.volume
  unfold Tunnel.volume at hvol
  rw [Set.mem_Ico] at hrange
  rw [Tunnel.offset, calculateOffset_eq, heq]
  exact int32_of_range (by omega) (by omega)

/-- **`calculateOffset` numbers the blocks of a level exactly when the level is as wide as deep, or has
    depth one.** -/
theorem offset_bijOn_iff {t : Tunnel} (ht : t.Sized) :
    Set.BijOn t.offset t.blocks (Set.Ico 0 t.volume) ↔ t.lvlx = t.lvlz ∨ t.lvlz.toNat = 1 := by
  constructor
  · rintro ⟨hmaps, hinj, -⟩
    by_contra hne
    obtain ⟨hxz, hz⟩ := not_or.mp hne
    have hz₁ := ht.z.1
    rcases lt_trichotomy t.lvlx.toNat t.lvlz.toNat with hlt | heq | hgt
    · exact outside ht hlt hmaps
    · exact hxz (UInt16.toNat_inj.mp heq)
    · exact collision ht (by omega) hgt hinj
  · intro h
    have hx := ht.x.1
    have hz := ht.z.1
    have hcomp := (bijOn_index (a := t.lvlx.toNat) (b := t.lvly.toNat) (c := t.lvlz.toNat)
      (by omega) (by omega)).comp (bijOn_cellOf ht)
    exact hcomp.congr (fun c hc => (offset_eq_index ht h hc).symm)

/-- A level of 64 by 64 by 64 blocks. -/
theorem offset_bijOn_cube :
    Set.BijOn ({ lvlx := 64, lvly := 64, lvlz := 64 } : Tunnel).offset
      ({ lvlx := 64, lvly := 64, lvlz := 64 } : Tunnel).blocks (Set.Ico 0 262144) :=
  (offset_bijOn_iff (t := { lvlx := 64, lvly := 64, lvlz := 64 })
    ⟨by decide, by decide, by decide, by decide⟩).mpr (Or.inl rfl)

/-- A level of 128 by 64 by 256 blocks, like any that is deeper than wide, has blocks outside its map. -/
theorem offset_not_bijOn :
    ¬ ∀ t : Tunnel, t.Sized → Set.BijOn t.offset t.blocks (Set.Ico 0 t.volume) := by
  intro h
  have hmaps := (h { lvlx := 128, lvly := 64, lvlz := 256 }
    ⟨by decide, by decide, by decide, by decide⟩).mapsTo
  have hlast : ((127, 63, 255) : Coords) ∈ ({ lvlx := 128, lvly := 64, lvlz := 256 } : Tunnel).blocks := by
    refine ⟨?_, ?_, ?_⟩ <;> decide
  have hmem := (hmaps hlast).2
  revert hmem
  decide

end LavaTunnel
