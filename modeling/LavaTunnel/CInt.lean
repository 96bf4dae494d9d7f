import Mathlib.Data.List.Basic
import Mathlib.Tactic.Ring

/-!
# `LavaTunnel.CInt` — the C integers of the tunnel

The code computes in `int` (32 bits) and stores in `short` and `unsigned short` (16 bits), on a
little-endian machine. `Int16` and `UInt16` are the stored values; a computation is done in `Int` and cut
back by `int32`, `toShort` or `toUShort` where the code does so. Bytes are `UInt8`, also where the code
says `char`: the sign of a `char` matters in a few places, and there `UInt8.toInt8` reads it.
-/

namespace LavaTunnel

/-- The value of an `int` computation: 32 bits, two's complement. -/
def int32 (n : Int) : Int := n.bmod (2 ^ 32)

/-- Conversion to `short`. -/
def toShort (n : Int) : Int16 := Int16.ofInt n

/-- Conversion to `unsigned short`. -/
def toUShort (n : Int) : UInt16 := UInt16.ofNat (n % 65536).toNat

theorem int32_of_range {n : Int} (h₁ : -(2 ^ 31) ≤ n) (h₂ : n < 2 ^ 31) : int32 n = n := by
  apply Int.bmod_eq_of_le
  · exact h₁
  · exact h₂

/-- A computation that leaves the range on the upper side comes out negative. -/
theorem int32_of_overflow {n : Int} (h₁ : 2 ^ 31 ≤ n) (h₂ : n < 2 ^ 32) : int32 n = n - 2 ^ 32 := by
  unfold int32
  rw [Int.bmod_def]
  split <;> omega

/-- Only the end result of a sum has to be cut back. -/
theorem int32_add (a b : Int) : int32 (int32 a + b) = int32 (a + b) := Int.bmod_add_bmod

/-- Counting down changes the count. -/
theorem int32_add_ne (n : Int) {d : Int} (h₁ : -(2 ^ 31) ≤ d) (h₂ : d < 0) : int32 (n + d) ≠ n := by
  intro h
  have hmod : (n + d) % (2 ^ 32 : Nat) = n % (2 ^ 32 : Nat) := by
    rw [← Int.bmod_emod]
    exact congrArg (· % ((2 ^ 32 : Nat) : Int)) h
  omega

/-- A number of bytes that an `int` can count. -/
theorem int32_eq_iff (n : Nat) : int32 n = n ↔ n < 2 ^ 31 := by
  constructor
  · intro h
    have hlt : int32 n < 2 ^ 31 := Int.bmod_lt (by decide)
    omega
  · intro h
    exact int32_of_range (by omega) (by omega)

theorem toInt_toShort {n : Int} (h₁ : -32768 ≤ n) (h₂ : n < 32768) : (toShort n).toInt = n := by
  unfold toShort
  rw [Int16.toInt_ofInt]
  exact Int.bmod_eq_of_le h₁ h₂

@[simp] theorem toShort_toInt (x : Int16) : toShort x.toInt = x := Int16.ofInt_toInt x

@[simp] theorem toUShort_toNat (x : UInt16) : toUShort (x.toNat : Int) = x := by
  have h : x.toNat < 65536 := x.toNat_lt
  have hmod : ((x.toNat : Int) % 65536).toNat = x.toNat := by omega
  unfold toUShort
  rw [hmod, UInt16.ofNat_toNat]

/-- An `unsigned short` that a `short` can hold. -/
theorem toInt_toInt16 {x : UInt16} (h : x.toNat < 32768) : x.toInt16.toInt = x.toNat := by
  show x.toBitVec.toInt = x.toBitVec.toNat
  exact BitVec.toInt_eq_toNat_of_lt (by show 2 * x.toNat < 2 ^ 16; omega)

theorem toInt_lt (x : Int16) : x.toInt < 32768 := Int16.toInt_lt x

theorem le_toInt (x : Int16) : -32768 ≤ x.toInt := Int16.le_toInt x

/-- `v++` on a `short` that is not the largest one. -/
theorem toInt_succ {x : Int16} (h : x.toInt < 32767) : (x + 1).toInt = x.toInt + 1 := by
  have hle := le_toInt x
  rw [Int16.toInt_add]
  apply Int.bmod_eq_of_le
  · show -(((2 ^ 16 : Nat) : Int) / 2) ≤ x.toInt + 1
    omega
  · show x.toInt + 1 < (((2 ^ 16 : Nat) : Int) + 1) / 2
    omega

/-- A `char` is signed: from 128 on it is negative. -/
theorem toInt_toInt8 (b : UInt8) :
    b.toInt8.toInt = if b.toNat < 128 then (b.toNat : Int) else b.toNat - 256 := by
  show b.toBitVec.toInt = if b.toBitVec.toNat < 128 then (b.toBitVec.toNat : Int) else b.toBitVec.toNat - 256
  rw [BitVec.toInt_eq_toNat_cond]
  split <;> split <;> omega

/-! ## Bytes -/

/-- The two bytes of a 16-bit variable in memory. -/
def bytesOf (x : UInt16) : List UInt8 := [UInt8.ofNat x.toNat, UInt8.ofNat (x.toNat / 256)]

/-- A 16-bit variable read from memory. -/
def ofBytes : List UInt8 → UInt16
  | lo :: hi :: _ => UInt16.ofNat (lo.toNat + 256 * hi.toNat)
  | _ => 0

/-- `ntohs`: exchange the bytes. -/
def ntohs (x : UInt16) : UInt16 := ofBytes (bytesOf x).reverse

/-- `htons` is the same exchange. -/
def htons (x : UInt16) : UInt16 := ntohs x

@[simp] theorem length_bytesOf (x : UInt16) : (bytesOf x).length = 2 := rfl

theorem toNat_ofBytes (lo hi : UInt8) (l : List UInt8) :
    (ofBytes (lo :: hi :: l)).toNat = lo.toNat + 256 * hi.toNat := by
  have h₁ : lo.toNat < 256 := lo.toNat_lt
  have h₂ : hi.toNat < 256 := hi.toNat_lt
  show (UInt16.ofNat _).toNat = _
  rw [UInt16.toNat_ofNat']
  omega

theorem bytesOf_ofBytes (lo hi : UInt8) (l : List UInt8) :
    bytesOf (ofBytes (lo :: hi :: l)) = [lo, hi] := by
  have h₁ : lo.toNat < 256 := lo.toNat_lt
  have h₂ : hi.toNat < 256 := hi.toNat_lt
  unfold bytesOf
  rw [toNat_ofBytes]
  have hlo : UInt8.ofNat (lo.toNat + 256 * hi.toNat) = lo := by
    apply UInt8.toNat_inj.mp
    rw [UInt8.toNat_ofNat']
    omega
  have hhi : UInt8.ofNat ((lo.toNat + 256 * hi.toNat) / 256) = hi := by
    apply UInt8.toNat_inj.mp
    rw [UInt8.toNat_ofNat']
    omega
  rw [hlo, hhi]

theorem ofBytes_bytesOf (x : UInt16) : ofBytes (bytesOf x) = x := by
  have h : x.toNat < 65536 := x.toNat_lt
  apply UInt16.toNat_inj.mp
  show (ofBytes [UInt8.ofNat x.toNat, UInt8.ofNat (x.toNat / 256)]).toNat = x.toNat
  rw [toNat_ofBytes, UInt8.toNat_ofNat', UInt8.toNat_ofNat']
  omega

/-- The bytes of `htons x` are those of `x`, the high one first. -/
theorem bytesOf_htons (x : UInt16) : bytesOf (htons x) = (bytesOf x).reverse :=
  bytesOf_ofBytes _ _ []

/-- A text as the bytes of its characters. -/
def ascii (s : String) : List UInt8 := s.toList.map (fun c => UInt8.ofNat c.toNat)

end LavaTunnel
