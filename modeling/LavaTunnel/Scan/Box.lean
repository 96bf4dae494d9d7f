import Mathlib.Data.List.Basic
import Mathlib.Data.List.Nodup
import Mathlib.Data.List.Lattice
import Mathlib.Tactic.Ring

/-!
# `Scan.Box` — three nested counting loops over a box

The loop nest

    while (vy <= y2) { vx = x1; while (vx <= x2) { vz = z1; while (vz <= z2) { visit; vz++ } vx++ } vy++ }

as a transition system: `Place` is where the nest stands, `Box.next` evaluates one loop condition. What is
left to visit is a list (`Box.remaining`), so every run property is a statement about one step:

* `remaining_next` — a step visits the head of the list or nothing, and keeps the rest;
* `stepsLeft_next` — the number of conditions still to be evaluated falls by one;
* `mem_cells`, `nodup_cells` — the whole list is each cell of the box, once.

Coordinates are integers here; a program that counts in fewer bits has to show that it does not wrap.
-/

namespace Scan

/-! ## Ranges -/

/-- The integers from `a` to `b`, in order. -/
def span (a b : Int) : List Int := (List.range (b + 1 - a).toNat).map (fun k : Nat => a + (k : Int))

theorem span_nil {a b : Int} (h : b < a) : span a b = [] := by
  have h0 : (b + 1 - a).toNat = 0 := by omega
  simp [span, h0]

theorem span_cons {a b : Int} (h : a ≤ b) : span a b = a :: span (a + 1) b := by
  have hs : (b + 1 - a).toNat = (b + 1 - (a + 1)).toNat + 1 := by omega
  unfold span
  rw [hs, List.range_succ_eq_map, List.map_cons, List.map_map]
  congr 1
  · simp
  · apply List.map_congr_left
    intro k _
    simp only [Function.comp_apply, Nat.succ_eq_add_one, Nat.cast_add, Nat.cast_one]
    ring

theorem mem_span {a b v : Int} : v ∈ span a b ↔ a ≤ v ∧ v ≤ b := by
  unfold span
  rw [List.mem_map]
  constructor
  · rintro ⟨k, hk, rfl⟩
    rw [List.mem_range] at hk
    omega
  · rintro ⟨h₁, h₂⟩
    exact ⟨(v - a).toNat, by rw [List.mem_range]; omega, by omega⟩

theorem length_span (a b : Int) : (span a b).length = (b + 1 - a).toNat := by
  simp [span]

theorem nodup_span (a b : Int) : (span a b).Nodup := by
  unfold span
  apply List.Nodup.map _ List.nodup_range
  intro i j h
  simpa using h

/-! ## The box and its cells -/

/-- A block position. -/
@[ext] structure Cell where
  x : Int
  y : Int
  z : Int
deriving DecidableEq

/-- A box between two corners, the smaller coordinate first on each axis. -/
structure Box where
  x1 : Int
  y1 : Int
  z1 : Int
  x2 : Int
  y2 : Int
  z2 : Int
deriving DecidableEq

/-- Which loop condition is evaluated next. -/
inductive Level where
  | y
  | x
  | z
deriving DecidableEq

/-- Where the loop nest stands. -/
structure Place where
  level : Level
  vx : Int
  vy : Int
  vz : Int

namespace Box

variable (b : Box)

/-- The cells of one row from `vz` on. -/
def row (vx vy vz : Int) : List Cell := (span vz b.z2).map (fun z => ⟨vx, vy, z⟩)

/-- The cells of one layer from the row `vx` on. -/
def layer (vy vx : Int) : List Cell := (span vx b.x2).flatMap (fun x => b.row x vy b.z1)

/-- The cells from the layer `vy` on. -/
def layers (vy : Int) : List Cell := (span vy b.y2).flatMap (fun y => b.layer y b.x1)

/-- All cells of the box: in y, then x, then z order. -/
def cells : List Cell := b.layers b.y1

/-- What is still to be visited from a place. -/
def remaining (p : Place) : List Cell :=
  match p.level with
  | .y => b.layers p.vy
  | .x => b.layer p.vy p.vx ++ b.layers (p.vy + 1)
  | .z => b.row p.vx p.vy p.vz ++ b.layer p.vy (p.vx + 1) ++ b.layers (p.vy + 1)

/-- Evaluate one loop condition: the place afterwards, `none` at the end, and the cell visited. -/
def next (p : Place) : Option Place × Option Cell :=
  match p.level with
  | .y => if p.vy ≤ b.y2 then (some ⟨.x, b.x1, p.vy, p.vz⟩, none) else (none, none)
  | .x =>
      if p.vx ≤ b.x2 then (some ⟨.z, p.vx, p.vy, b.z1⟩, none)
      else (some ⟨.y, p.vx, p.vy + 1, p.vz⟩, none)
  | .z =>
      if p.vz ≤ b.z2 then (some ⟨.z, p.vx, p.vy, p.vz + 1⟩, some ⟨p.vx, p.vy, p.vz⟩)
      else (some ⟨.x, p.vx + 1, p.vy, p.vz⟩, none)

/-- The start of the nest. -/
def entry : Place := ⟨.y, b.x1, b.y1, b.z1⟩

@[simp] theorem remaining_entry : b.remaining b.entry = b.cells := rfl

/-! ## What one step does to what remains -/

variable {b}

theorem row_nil {vx vy vz : Int} (h : b.z2 < vz) : b.row vx vy vz = [] := by
  rw [row, span_nil h, List.map_nil]

theorem row_cons {vx vy vz : Int} (h : vz ≤ b.z2) :
    b.row vx vy vz = ⟨vx, vy, vz⟩ :: b.row vx vy (vz + 1) := by
  rw [row, span_cons h, List.map_cons, row]

theorem layer_nil {vy vx : Int} (h : b.x2 < vx) : b.layer vy vx = [] := by
  rw [layer, span_nil h, List.flatMap_nil]

theorem layer_cons {vy vx : Int} (h : vx ≤ b.x2) :
    b.layer vy vx = b.row vx vy b.z1 ++ b.layer vy (vx + 1) := by
  rw [layer, span_cons h, List.flatMap_cons, layer]

theorem layers_nil {vy : Int} (h : b.y2 < vy) : b.layers vy = [] := by
  rw [layers, span_nil h, List.flatMap_nil]

theorem layers_cons {vy : Int} (h : vy ≤ b.y2) :
    b.layers vy = b.layer vy b.x1 ++ b.layers (vy + 1) := by
  rw [layers, span_cons h, List.flatMap_cons, layers]

/-- What remains where the nest stands, nothing once it is done. -/
def remaining? (b : Box) (p : Option Place) : List Cell := p.elim [] b.remaining

/-- **A step visits the head of what remains, or nothing, and keeps the rest.** -/
theorem remaining_next (p : Place) :
    b.remaining p = (b.next p).2.toList ++ b.remaining? (b.next p).1 := by
  obtain ⟨level, vx, vy, vz⟩ := p
  cases level with
  | y =>
      by_cases h : vy ≤ b.y2
      · simp only [remaining, next, if_pos h, remaining?, Option.toList_none, List.nil_append,
          Option.elim_some]
        exact layers_cons h
      · simp only [remaining, next, if_neg h, remaining?, Option.toList_none, List.nil_append,
          Option.elim_none]
        exact layers_nil (by omega)
  | x =>
      by_cases h : vx ≤ b.x2
      · simp only [remaining, next, if_pos h, remaining?, Option.toList_none, List.nil_append,
          Option.elim_some, layer_cons h]
      · simp only [remaining, next, if_neg h, remaining?, Option.toList_none, List.nil_append,
          Option.elim_some, layer_nil (show b.x2 < vx by omega)]
  | z =>
      by_cases h : vz ≤ b.z2
      · simp only [remaining, next, if_pos h, remaining?, Option.toList_some, Option.elim_some,
          row_cons h, List.cons_append, List.nil_append]
      · simp only [remaining, next, if_neg h, remaining?, Option.toList_none, List.nil_append,
          Option.elim_some, row_nil (show b.z2 < vz by omega)]

/-! ## Termination -/

/-- Conditions evaluated in a row from `vz` on, and likewise for a layer and the nest. -/
def rowSteps (b : Box) (vz : Int) : Nat := (span vz b.z2).length + 1

def layerSteps (b : Box) (vx : Int) : Nat := ((span vx b.x2).map (fun _ => 1 + b.rowSteps b.z1)).sum + 1

def layersSteps (b : Box) (vy : Int) : Nat :=
  ((span vy b.y2).map (fun _ => 1 + b.layerSteps b.x1)).sum + 1

/-- Conditions still to be evaluated. -/
def stepsLeft (b : Box) (p : Place) : Nat :=
  match p.level with
  | .y => b.layersSteps p.vy
  | .x => b.layerSteps p.vx + b.layersSteps (p.vy + 1)
  | .z => b.rowSteps p.vz + b.layerSteps (p.vx + 1) + b.layersSteps (p.vy + 1)

/-- **Each step brings the end one condition nearer.** -/
theorem stepsLeft_next (p : Place) : b.stepsLeft p = (b.next p).1.elim 0 b.stepsLeft + 1 := by
  obtain ⟨level, vx, vy, vz⟩ := p
  cases level with
  | y =>
      by_cases h : vy ≤ b.y2
      · simp only [stepsLeft, next, if_pos h, Option.elim_some, layersSteps, span_cons h, List.map_cons,
          List.sum_cons]
        omega
      · simp only [stepsLeft, next, if_neg h, Option.elim_none, layersSteps,
          span_nil (show b.y2 < vy by omega), List.map_nil, List.sum_nil]
  | x =>
      by_cases h : vx ≤ b.x2
      · simp only [stepsLeft, next, if_pos h, Option.elim_some, layerSteps, span_cons h, List.map_cons,
          List.sum_cons]
        omega
      · simp only [stepsLeft, next, if_neg h, Option.elim_some, layerSteps,
          span_nil (show b.x2 < vx by omega), List.map_nil, List.sum_nil]
        omega
  | z =>
      by_cases h : vz ≤ b.z2
      · simp only [stepsLeft, next, if_pos h, Option.elim_some, rowSteps, span_cons h, List.length_cons]
        omega
      · simp only [stepsLeft, next, if_neg h, Option.elim_some, rowSteps,
          span_nil (show b.z2 < vz by omega), List.length_nil]
        omega

/-! ## The counters stay in range -/

/-- The counters that matter at a level lie in the box, the one being counted at most one beyond. -/
def Within (b : Box) (p : Place) : Prop :=
  match p.level with
  | .y => b.y1 ≤ p.vy
  | .x => b.y1 ≤ p.vy ∧ p.vy ≤ b.y2 ∧ b.x1 ≤ p.vx
  | .z => b.y1 ≤ p.vy ∧ p.vy ≤ b.y2 ∧ b.x1 ≤ p.vx ∧ p.vx ≤ b.x2 ∧ b.z1 ≤ p.vz

theorem within_entry (b : Box) : b.Within b.entry := le_refl b.y1

theorem within_next {p p' : Place} (h : b.Within p) (hp : (b.next p).1 = some p') : b.Within p' := by
  obtain ⟨level, vx, vy, vz⟩ := p
  cases level with
  | y =>
      by_cases hv : vy ≤ b.y2
      · simp only [next, if_pos hv, Option.some.injEq] at hp
        subst hp
        exact ⟨h, hv, le_refl _⟩
      · simp [next, if_neg hv] at hp
  | x =>
      obtain ⟨hy, hy', hx⟩ : b.y1 ≤ vy ∧ vy ≤ b.y2 ∧ b.x1 ≤ vx := h
      by_cases hv : vx ≤ b.x2
      · simp only [next, if_pos hv, Option.some.injEq] at hp
        subst hp
        exact ⟨hy, hy', hx, hv, le_refl _⟩
      · simp only [next, if_neg hv, Option.some.injEq] at hp
        subst hp
        show b.y1 ≤ vy + 1
        omega
  | z =>
      obtain ⟨hy, hy', hx, hx', hz⟩ :
        b.y1 ≤ vy ∧ vy ≤ b.y2 ∧ b.x1 ≤ vx ∧ vx ≤ b.x2 ∧ b.z1 ≤ vz := h
      by_cases hv : vz ≤ b.z2
      · simp only [next, if_pos hv, Option.some.injEq] at hp
        subst hp
        exact ⟨hy, hy', hx, hx', by show b.z1 ≤ vz + 1; omega⟩
      · simp only [next, if_neg hv, Option.some.injEq] at hp
        subst hp
        exact ⟨hy, hy', by show b.x1 ≤ vx + 1; omega⟩

/-! ## The cells of the box -/

/-- A position lies in the box. -/
def Contains (b : Box) (c : Cell) : Prop :=
  (b.x1 ≤ c.x ∧ c.x ≤ b.x2) ∧ (b.y1 ≤ c.y ∧ c.y ≤ b.y2) ∧ (b.z1 ≤ c.z ∧ c.z ≤ b.z2)

instance (b : Box) (c : Cell) : Decidable (b.Contains c) := by
  unfold Contains
  exact inferInstance

theorem mem_row {vx vy vz : Int} {c : Cell} :
    c ∈ b.row vx vy vz ↔ c.x = vx ∧ c.y = vy ∧ vz ≤ c.z ∧ c.z ≤ b.z2 := by
  unfold row
  rw [List.mem_map]
  constructor
  · rintro ⟨z, hz, rfl⟩
    exact ⟨rfl, rfl, mem_span.mp hz⟩
  · rintro ⟨rfl, rfl, hz⟩
    exact ⟨c.z, mem_span.mpr hz, rfl⟩

theorem mem_layer {vy vx : Int} {c : Cell} :
    c ∈ b.layer vy vx ↔ (vx ≤ c.x ∧ c.x ≤ b.x2) ∧ c.y = vy ∧ b.z1 ≤ c.z ∧ c.z ≤ b.z2 := by
  unfold layer
  rw [List.mem_flatMap]
  constructor
  · rintro ⟨x, hx, hc⟩
    obtain ⟨rfl, hy, hz⟩ := mem_row.mp hc
    exact ⟨mem_span.mp hx, hy, hz⟩
  · rintro ⟨hx, hy, hz⟩
    exact ⟨c.x, mem_span.mpr hx, mem_row.mpr ⟨rfl, hy, hz⟩⟩

/-- **The nest visits the box.** -/
theorem mem_cells {c : Cell} : c ∈ b.cells ↔ b.Contains c := by
  unfold cells layers Contains
  rw [List.mem_flatMap]
  constructor
  · rintro ⟨y, hy, hc⟩
    obtain ⟨hx, rfl, hz⟩ := mem_layer.mp hc
    exact ⟨hx, mem_span.mp hy, hz⟩
  · rintro ⟨hx, hy, hz⟩
    exact ⟨c.y, mem_span.mpr hy, mem_layer.mpr ⟨hx, rfl, hz⟩⟩

/-- **The nest visits no cell twice.** -/
theorem nodup_cells (b : Box) : b.cells.Nodup := by
  unfold cells layers
  rw [List.nodup_flatMap]
  constructor
  · intro y _
    unfold layer
    rw [List.nodup_flatMap]
    constructor
    · intro x _
      exact (nodup_span _ _).map (fun z z' h => by simpa using h)
    · refine (nodup_span _ _).imp ?_
      intro x x' hne c hc hc'
      exact hne ((mem_row.mp hc).1.symm.trans (mem_row.mp hc').1)
  · refine (nodup_span _ _).imp ?_
    intro y y' hne c hc hc'
    exact hne ((mem_layer.mp hc).2.1.symm.trans (mem_layer.mp hc').2.1)

/-- The number of cells is the product of the three extents. -/
theorem length_cells (b : Box) :
    b.cells.length =
      (b.y2 + 1 - b.y1).toNat * ((b.x2 + 1 - b.x1).toNat * (b.z2 + 1 - b.z1).toNat) := by
  have hconst : ∀ (l : List Int) (f : Int → List Cell) (k : Nat), (∀ v, (f v).length = k) →
      (l.flatMap f).length = l.length * k := by
    intro l f k hf
    induction l with
    | nil => simp
    | cons v l ih => simp only [List.flatMap_cons, List.length_append, hf, ih, List.length_cons]; ring
  have hrow : ∀ x y, (b.row x y b.z1).length = (b.z2 + 1 - b.z1).toNat := by
    intro x y
    rw [row, List.length_map, length_span]
  have hlayer : ∀ y, (b.layer y b.x1).length =
      (b.x2 + 1 - b.x1).toNat * (b.z2 + 1 - b.z1).toNat := by
    intro y
    rw [layer, hconst _ _ _ (fun x => hrow x y), length_span]
  rw [cells, layers, hconst _ _ _ hlayer, length_span]

end Box

/-! ## Translation -/

theorem span_add (a b d : Int) : span (a + d) (b + d) = (span a b).map (· + d) := by
  have hlen : b + d + 1 - (a + d) = b + 1 - a := by ring
  unfold span
  rw [hlen, List.map_map]
  apply List.map_congr_left
  intro k _
  simp only [Function.comp_apply]
  ring

/-- A cell moved by an offset. -/
def Cell.translate (d c : Cell) : Cell := ⟨c.x + d.x, c.y + d.y, c.z + d.z⟩

/-- A box moved by an offset. -/
def Box.translate (d : Cell) (b : Box) : Box :=
  ⟨b.x1 + d.x, b.y1 + d.y, b.z1 + d.z, b.x2 + d.x, b.y2 + d.y, b.z2 + d.z⟩

/-- **The nest visits the moved cells in the same order.** -/
theorem Box.cells_translate (d : Cell) (b : Box) : (b.translate d).cells = b.cells.map d.translate := by
  have hrow : ∀ x y, (b.translate d).row (x + d.x) (y + d.y) (b.translate d).z1 =
    (b.row x y b.z1).map d.translate := by
    intro x y
    unfold Box.row
    rw [show (b.translate d).z1 = b.z1 + d.z from rfl, show (b.translate d).z2 = b.z2 + d.z from rfl, span_add,
      List.map_map, List.map_map]
    rfl
  have hlayer : ∀ y, (b.translate d).layer (y + d.y) (b.translate d).x1 = (b.layer y b.x1).map d.translate := by
    intro y
    unfold Box.layer
    rw [show (b.translate d).x1 = b.x1 + d.x from rfl, show (b.translate d).x2 = b.x2 + d.x from rfl, span_add,
      List.flatMap_map, List.map_flatMap]
    exact List.flatMap_congr fun x _ => hrow x y
  unfold Box.cells Box.layers
  rw [show (b.translate d).y1 = b.y1 + d.y from rfl, show (b.translate d).y2 = b.y2 + d.y from rfl, span_add,
    List.flatMap_map, List.map_flatMap]
  exact List.flatMap_congr fun y _ => hlayer y

end Scan
