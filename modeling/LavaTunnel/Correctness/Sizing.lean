import LavaTunnel.Correctness.Termination

/-!
# `LavaTunnel.Correctness.Sizing` — the buffer of a copy

The extents are counted in an `int` and kept in a `short`, the size is their product in `int` arithmetic, and the nest
writes one byte for every cell it comes to. Extents and cells agree for every box that a copy gets through; the
product does as long as it is a number an `int` can hold.
-/

namespace LavaTunnel

open Scan Wire

/-! ## What a copy writes -/

/-- The index in `copyBuf` that an iteration writes to, `bufLoop` being an `int`. -/
def written (t : Tunnel) : Pc → List Int
  | .copyLoop copyBuf l => if l.inside (copyBounds t) ∧ l.level = .z then [int32 copyBuf.length] else []
  | _ => []

/-- The indices that a run writes to. -/
def writes (env : Env) : List (Tunnel → Tunnel) → Building → List Int
  | [], _ => []
  | f :: fs, b => written (f b.state) b.pc ++ writes env fs ({ b with state := f b.state }.next env)

theorem writes_cons (env : Env) (f : Tunnel → Tunnel) (fs : List (Tunnel → Tunnel)) (pc : Pc) (t : Tunnel)
    (calls : List BuilderCall) :
    writes env (f :: fs) ⟨pc, t, calls⟩ = written (f t) pc ++ writes env fs
      ⟨(builderIteration env (f t) pc).next, (builderIteration env (f t) pc).update (f t),
        calls ++ (builderIteration env (f t) pc).calls⟩ := rfl

/-- **From any place in the nest** one index is written for each cell that remains, beginning behind what has been. -/
theorem copyLoop_writes (env : Env) {t₀ : Tunnel} {box : Box} (hb : (copyBounds t₀).Describes box) (l : Loops)
    (hw : box.Within l.place) :
    ∀ (copyBuf : Bytes) (fs : List (Tunnel → Tunnel)) (t : Tunnel) (calls : List BuilderCall),
      fs.length = box.stepsLeft l.place → (∀ f ∈ fs, Keeps (fun t => t.copy) f) → t.copy = t₀.copy →
        (∃ copyBuf', (Building.run env fs ⟨.copyLoop copyBuf l, t, calls⟩).pc = .copyWrite copyBuf') ∧
          writes env fs ⟨.copyLoop copyBuf l, t, calls⟩ =
            (List.range' copyBuf.length (box.remaining l.place).length).map (fun n : Nat => int32 n) := by
  refine Loops.nest_induction hb (motive := fun l => ∀ (copyBuf : Bytes) (fs : List (Tunnel → Tunnel)) (t : Tunnel)
    (calls : List BuilderCall), fs.length = box.stepsLeft l.place → (∀ f ∈ fs, Keeps (fun t => t.copy) f) →
      t.copy = t₀.copy →
        (∃ copyBuf', (Building.run env fs ⟨.copyLoop copyBuf l, t, calls⟩).pc = .copyWrite copyBuf') ∧
          writes env fs ⟨.copyLoop copyBuf l, t, calls⟩ =
            (List.range' copyBuf.length (box.remaining l.place).length).map (fun n : Nat => int32 n)) ?_ ?_ ?_ l hw
  · -- a condition holds
    intro l hw h ih copyBuf fs t calls hlen hfs ht
    rw [stepsLeft_enter hb h] at hlen
    obtain ⟨f, fs, rfl⟩ := List.exists_cons_of_length_eq_add_one hlen
    have hft : (f t).copy = t₀.copy := (hfs f List.mem_cons_self t).trans ht
    have hbounds : copyBounds (f t) = copyBounds t₀ := by simp only [copyBounds, hft]
    have hfs' : ∀ g ∈ fs, Keeps (fun t => t.copy) g := fun g hg => hfs g (List.mem_cons_of_mem f hg)
    rw [run_cons, writes_cons, remaining_enter hb h]
    simp only [builderIteration, copyIteration, written, hbounds, h, if_true, true_and]
    by_cases hz : l.level = .z
    · -- the innermost body writes its byte
      obtain ⟨hpc, hwrites⟩ := ih (copyBuf ++ [(f t).map (calculateOffset (f t) l.vx l.vy l.vz)]) fs (f t)
        (calls ++ []) (by simpa using hlen) hfs' hft
      rw [if_pos hz, if_pos hz, if_pos hz]
      refine ⟨hpc, ?_⟩
      rw [List.length_append, List.length_singleton] at hwrites
      rw [List.length_append, List.length_singleton, Nat.add_comm 1, List.range'_succ, List.map_cons]
      exact congrArg (List.cons (int32 copyBuf.length)) hwrites
    · obtain ⟨hpc, hwrites⟩ := ih copyBuf fs (f t) (calls ++ []) (by simpa using hlen) hfs' hft
      rw [if_neg hz, if_neg hz, if_neg hz]
      exact ⟨hpc, hwrites⟩
  · -- a condition fails, and the loop around goes on
    intro l l' hw h hl ih copyBuf fs t calls hlen hfs ht
    rw [stepsLeft_leave hb hw h hl] at hlen
    obtain ⟨f, fs, rfl⟩ := List.exists_cons_of_length_eq_add_one hlen
    have hft : (f t).copy = t₀.copy := (hfs f List.mem_cons_self t).trans ht
    have hbounds : copyBounds (f t) = copyBounds t₀ := by simp only [copyBounds, hft]
    have hrest := ih copyBuf fs (f t) (calls ++ []) (by simpa using hlen)
      (fun g hg => hfs g (List.mem_cons_of_mem f hg)) hft
    rw [run_cons, writes_cons, remaining_leave hb hw h hl]
    simp only [builderIteration, copyIteration, written, hbounds, h, hl, Bool.false_eq_true, if_false, false_and]
    exact hrest
  · -- the outermost condition fails
    intro l hw h hl copyBuf fs t calls hlen hfs ht
    rw [stepsLeft_done hb hw h hl] at hlen
    obtain ⟨f, rfl⟩ := List.length_eq_one_iff.mp hlen
    have hft : (f t).copy = t₀.copy := (hfs f List.mem_cons_self t).trans ht
    have hbounds : copyBounds (f t) = copyBounds t₀ := by simp only [copyBounds, hft]
    rw [run_cons, writes_cons, remaining_done hb hw h hl]
    simp only [builderIteration, copyIteration, written, hbounds, h, hl, Bool.false_eq_true, if_false, false_and]
    exact ⟨⟨copyBuf, rfl⟩, rfl⟩

/-! ## The size -/

/-- The number of blocks from one coordinate to another, both included. -/
def side (a b : UInt16) : Nat := max a.toNat b.toNat - min a.toNat b.toNat + 1

/-- The number of blocks in the box of a copy. -/
def Copy.volume (c : Copy) : Nat := side c.x1 c.x2 * side c.y1 c.y2 * side c.z1 c.z2

/-- The extents come out right. -/
theorem toInt_extent_side {a b : UInt16} (ha : a.toNat < 32767) (hb : b.toNat < 32767) :
    (extent (ordered a b).1 (ordered a b).2).toInt = side a b := by
  have hfst := ordered_fst a b
  have hsnd := ordered_snd a b
  rw [toInt_extent (by omega) (by omega), hfst, hsnd]
  unfold side
  omega

/-- The product may be too large for an `int`. -/
theorem copySize_eq {c : Copy} (h : c.Short) : copySize (copySorted c) = int32 ((c.volume + 6 : Nat) : Int) := by
  unfold copySize
  rw [show (extent (copySorted c).x1 (copySorted c).x2).toInt = _ from toInt_extent_side h.x.1 h.x.2,
    show (extent (copySorted c).y1 (copySorted c).y2).toInt = _ from toInt_extent_side h.y.1 h.y.2,
    show (extent (copySorted c).z1 (copySorted c).z2).toInt = _ from toInt_extent_side h.z.1 h.z.2, int32_add]
  have hmul : ∀ a b : Int, int32 (int32 a * b) = int32 (a * b) := fun a b => Int.bmod_mul_bmod
  rw [← int32_add, hmul, int32_add]
  unfold Copy.volume
  push_cast
  rfl

theorem length_cells_volume (c : Copy) : c.box.cells.length = c.volume := by
  have haxis : ∀ a b : UInt16, (((max a.toNat b.toNat : Nat) : Int) + 1 - (min a.toNat b.toNat : Nat)).toNat =
      side a b := by
    intro a b
    unfold side
    omega
  rw [Box.length_cells]
  show (((max c.y1.toNat c.y2.toNat : Nat) : Int) + 1 - (min c.y1.toNat c.y2.toNat : Nat)).toNat *
    ((((max c.x1.toNat c.x2.toNat : Nat) : Int) + 1 - (min c.x1.toNat c.x2.toNat : Nat)).toNat *
      (((max c.z1.toNat c.z2.toNat : Nat) : Int) + 1 - (min c.z1.toNat c.z2.toNat : Nat)).toNat) = c.volume
  rw [haxis, haxis, haxis]
  unfold Copy.volume
  ring

/-- What the size is used for: `copy.size` and the extents in front of the loops, and the indices that are written. -/
structure CopySized (env : Env) (t : Tunnel) : Prop where
  entered : ∀ f, Keeps (fun t => t.copy) f → ∃ copyBuf l,
    (Building.run env [f] ⟨.copy, t, []⟩).pc = .copyLoop copyBuf l ∧
    (shortAt copyBuf 0).toInt = side t.copy.x1 t.copy.x2 ∧ (shortAt copyBuf 2).toInt = side t.copy.y1 t.copy.y2 ∧
    (shortAt copyBuf 4).toInt = side t.copy.z1 t.copy.z2 ∧
    (Building.run env [f] ⟨.copy, t, []⟩).state.copy.size = (t.copy.volume + 6 : Nat)
  written : ∃ n, ∀ fs : List (Tunnel → Tunnel), fs.length = n → (∀ f ∈ fs, Keeps (fun t => t.copy) f) →
    (∃ copyBuf, (Building.run env fs ⟨.copy, t, []⟩).pc = .copyWrite copyBuf) ∧
      ∀ i : Int, (writes env fs ⟨.copy, t, []⟩).count i = if 6 ≤ i ∧ i < (t.copy.volume + 6 : Nat) then 1 else 0

theorem short_of_corners {c : Copy} (h : ShortCorners c.corners) : c.Short := by
  obtain ⟨hx1, hy1, hz1⟩ := h (c.x1, c.y1, c.z1) List.mem_cons_self
  obtain ⟨hx2, hy2, hz2⟩ := h (c.x2, c.y2, c.z2) (List.mem_cons_of_mem _ List.mem_cons_self)
  exact ⟨⟨hx1, hx2⟩, ⟨hy1, hy2⟩, ⟨hz1, hz2⟩⟩

section Sized

variable (env : Env) {t : Tunnel}

/-- The first iteration, whatever the other threads have done to the rest of the state. -/
theorem copyStart_kept (hstart : t.copy.start = true) (hsize : ¬ copySize (copySorted t.copy) < 0)
    {f : Tunnel → Tunnel} (hf : Keeps (fun t => t.copy) f) :
    (builderIteration env (f t) .copy).next = (copyEntered t (copyHeader (copySorted t.copy))).pc ∧
      ((builderIteration env (f t) .copy).update (f t)).copy =
        { copySorted t.copy with size := copySize (copySorted t.copy) } := by
  have hft : (f t).copy = t.copy := hf t
  obtain ⟨hnext, hupdate⟩ := copyStart_entered env (t := f t) (by rw [hft, hstart]) (by rw [hft]; exact hsize)
  rw [hnext, hupdate]
  simp only [copyEntered, copyStart, hft]
  exact ⟨trivial, trivial⟩

/-- The indices, when the size is right. -/
theorem count_written {volume : Nat} (h : volume + 6 < 2 ^ 31) (i : Int) :
    ((List.range' 6 volume).map (fun n : Nat => int32 n)).count i =
      if 6 ≤ i ∧ i < (volume + 6 : Nat) then 1 else 0 := by
  have hsame : (List.range' 6 volume).map (fun n : Nat => int32 n) = (List.range' 6 volume).map Nat.cast := by
    refine List.map_congr_left fun n hn => ?_
    obtain ⟨-, hlt⟩ := List.mem_range'_1.mp hn
    exact (int32_eq_iff n).mpr (by omega)
  have hnodup : ((List.range' 6 volume).map (Nat.cast : Nat → Int)).Nodup :=
    List.Nodup.map Nat.cast_injective List.nodup_range'
  rw [hsame, hnodup.count]
  refine if_congr ?_ rfl rfl
  simp only [List.mem_map, List.mem_range'_1]
  constructor
  · rintro ⟨n, hn, rfl⟩
    omega
  · rintro ⟨hle, hlt⟩
    exact ⟨i.toNat, by omega, by omega⟩

section Right

variable (hstart : t.copy.start = true) (hshort : t.copy.Short) (hvol : t.copy.volume + 6 < 2 ^ 31)

include hshort hvol

theorem copySize_right : copySize (copySorted t.copy) = (t.copy.volume + 6 : Nat) :=
  (copySize_eq hshort).trans ((int32_eq_iff _).mpr hvol)

theorem copySize_nonneg : ¬ copySize (copySorted t.copy) < 0 := by
  rw [copySize_right hshort hvol]
  omega

include hstart

/-- The size and the extents in front of the loops. -/
theorem copy_entered {f : Tunnel → Tunnel} (hf : Keeps (fun t => t.copy) f) : ∃ copyBuf l,
    (Building.run env [f] ⟨.copy, t, []⟩).pc = .copyLoop copyBuf l ∧
    (shortAt copyBuf 0).toInt = side t.copy.x1 t.copy.x2 ∧ (shortAt copyBuf 2).toInt = side t.copy.y1 t.copy.y2 ∧
    (shortAt copyBuf 4).toInt = side t.copy.z1 t.copy.z2 ∧
    (Building.run env [f] ⟨.copy, t, []⟩).state.copy.size = (t.copy.volume + 6 : Nat) := by
  obtain ⟨hnext, hcopy⟩ := copyStart_kept env hstart (copySize_nonneg hshort hvol) hf
  have hsame : ∀ i < 6, (copyHeader (copySorted t.copy))[i]? = (copyHeader (copySorted t.copy))[i]? := fun _ _ => rfl
  obtain ⟨hx, hy, hz⟩ := shortAt_header hsame
  refine ⟨copyHeader (copySorted t.copy), _, hnext, ?_, ?_, ?_, ?_⟩
  · rw [hx]
    exact toInt_extent_side hshort.x.1 hshort.x.2
  · rw [hy]
    exact toInt_extent_side hshort.y.1 hshort.y.2
  · rw [hz]
    exact toInt_extent_side hshort.z.1 hshort.z.2
  · exact (congrArg Copy.size hcopy).trans (copySize_right hshort hvol)

/-- The indices that the loops write. -/
theorem copy_writes {fs : List (Tunnel → Tunnel)} (hlen : fs.length = t.copy.box.stepsLeft t.copy.box.entry + 1)
    (hfs : ∀ f ∈ fs, Keeps (fun t => t.copy) f) :
    (∃ copyBuf, (Building.run env fs ⟨.copy, t, []⟩).pc = .copyWrite copyBuf) ∧
      ∀ i : Int, (writes env fs ⟨.copy, t, []⟩).count i = if 6 ≤ i ∧ i < (t.copy.volume + 6 : Nat) then 1 else 0 := by
  obtain ⟨f, fs, rfl⟩ := List.exists_cons_of_length_eq_add_one hlen
  obtain ⟨hnext, hcopy⟩ :=
    copyStart_kept env hstart (copySize_nonneg hshort hvol) (hfs f List.mem_cons_self)
  have hentry : Loops.place ⟨.y, (copySorted t.copy).x1.toInt16, (copySorted t.copy).y1.toInt16,
      (copySorted t.copy).z1.toInt16⟩ = t.copy.box.entry := place_ordered hshort.x hshort.y hshort.z
  have hb : (copyBounds ((builderIteration env (f t) .copy).update (f t))).Describes t.copy.box := by
    unfold copyBounds
    rw [hcopy]
    exact describes_ordered hshort.x hshort.y hshort.z
  obtain ⟨hpc, hwrites⟩ := copyLoop_writes env hb _ (by rw [hentry]; exact Box.within_entry _)
    (copyHeader (copySorted t.copy)) fs _ ([] ++ (builderIteration env (f t) .copy).calls)
    (by rw [hentry]; simpa using hlen) (fun g hg => hfs g (List.mem_cons_of_mem f hg)) rfl
  rw [run_cons, writes_cons]
  simp only [hnext]
  refine ⟨hpc, fun i => ?_⟩
  rw [hentry, Box.remaining_entry, length_cells_volume] at hwrites
  rw [← count_written hvol i]
  exact congrArg (List.count i) hwrites

end Right

/-- **A copy is sized right** just if an `int` can hold the size of its chunk. -/
theorem copySized_iff (hstart : t.copy.start = true) (hends : CopyEnds env t) :
    CopySized env t ↔ t.copy.volume + 6 < 2 ^ 31 := by
  have hshort : t.copy.Short := short_of_corners ((copyEnds_iff env t).mp hends)
  constructor
  · intro h
    obtain ⟨copyBuf, l, -, -, -, -, hsize⟩ := h.entered id (keeps_id _)
    have hsize' : ((builderIteration env t .copy).update t).copy.size = (t.copy.volume + 6 : Nat) := hsize
    rw [iteration_copy_start env hstart] at hsize'
    exact (int32_eq_iff _).mp ((copySize_eq hshort).symm.trans hsize')
  · intro hvol
    refine ⟨fun f hf => copy_entered env hstart hshort hvol hf, t.copy.box.stepsLeft t.copy.box.entry + 1, ?_⟩
    exact fun fs hlen hfs => copy_writes env hstart hshort hvol hlen hfs

end Sized

/-- Eight blocks. -/
theorem copySized_eight :
    CopySized {} { copy := { x1 := 2, y1 := 1, z1 := 2, x2 := 1, y2 := 2, z2 := 1, start := true } } :=
  (copySized_iff {} rfl ((copyEnds_iff {} _).mpr (by decide))).mpr (by decide)

/-- A cube with 1291 blocks to a side is too large. -/
theorem not_copySized_cube :
    ¬ ∀ (env : Env) (t : Tunnel), t.copy.start = true → CopyEnds env t → CopySized env t := by
  intro hall
  let t : Tunnel := { copy := { x2 := 1290, y2 := 1290, z2 := 1290, start := true } }
  have hends : CopyEnds {} t := (copyEnds_iff {} t).mpr (by decide)
  exact absurd ((copySized_iff {} rfl hends).mp (hall {} t rfl hends)) (by decide)

end LavaTunnel
