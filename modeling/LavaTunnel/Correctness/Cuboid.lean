import LavaTunnel.Correctness.Nest

/-!
# `LavaTunnel.Correctness.Cuboid` — the cuboid covers its box

Left alone, the cuboid of the builder goes through the box between its corners once, whatever order they
were clicked in, and places its block in every cell where the map holds another one. The other threads may
do what they like, except to what the cuboid reads (`cuboidView`).
-/

namespace LavaTunnel

open Scan

/-- The box between two corners. -/
def boxBetween (x1 y1 z1 x2 y2 z2 : UInt16) : Box where
  x1 := (min x1.toNat x2.toNat : Nat)
  y1 := (min y1.toNat y2.toNat : Nat)
  z1 := (min z1.toNat z2.toNat : Nat)
  x2 := (max x1.toNat x2.toNat : Nat)
  y2 := (max y1.toNat y2.toNat : Nat)
  z2 := (max z1.toNat z2.toNat : Nat)

/-- The box of a cuboid. -/
def Cuboid.box (c : Cuboid) : Box := boxBetween c.x1 c.y1 c.z1 c.x2 c.y2 c.z2

/-- A position inside the level. -/
def Tunnel.Inside (t : Tunnel) (x y z : UInt16) : Prop :=
  x.toNat < t.lvlx.toNat ∧ y.toNat < t.lvly.toNat ∧ z.toNat < t.lvlz.toNat

/-- No side of the level is longer than 32767 blocks. -/
def Tunnel.ShortSides (t : Tunnel) : Prop :=
  t.lvlx.toNat ≤ 32767 ∧ t.lvly.toNat ≤ 32767 ∧ t.lvlz.toNat ≤ 32767

instance (t : Tunnel) (x y z : UInt16) : Decidable (t.Inside x y z) := inferInstanceAs (Decidable (_ ∧ _ ∧ _))

instance (t : Tunnel) : Decidable t.ShortSides := inferInstanceAs (Decidable (_ ∧ _ ∧ _))

/-- What the map of `t` holds for a cell. -/
def blockAt (t : Tunnel) (c : Cell) : UInt8 := bOffset t (toShort c.x) (toShort c.y) (toShort c.z)

/-- The calls that fill those of some cells that hold another block than the cuboid's. -/
def cuboidCalls (t : Tunnel) (cells : List Cell) : List (Int16 × Int16 × Int16 × UInt8) :=
  (cells.filter (fun c => blockAt t c != t.cuboid.block)).map
    (fun c => (toShort c.x, toShort c.y, toShort c.z, t.cuboid.block))

/-- What the cuboid reads. -/
def cuboidView (t : Tunnel) : Cuboid × (Int → UInt8) × UInt16 × UInt16 × Bool :=
  (t.cuboid, t.map, t.lvlx, t.lvlz, t.hide)

/-! ## Corners in order -/

theorem ordered_fst (a b : UInt16) : (ordered a b).1.toNat = min a.toNat b.toNat := by
  unfold ordered
  split <;> rename_i h <;> rw [UInt16.lt_iff_toNat_lt] at h
  · exact (Nat.min_eq_right h.le).symm
  · exact (Nat.min_eq_left (not_lt.mp h)).symm

theorem ordered_snd (a b : UInt16) : (ordered a b).2.toNat = max a.toNat b.toNat := by
  unfold ordered
  split <;> rename_i h <;> rw [UInt16.lt_iff_toNat_lt] at h
  · exact (Nat.max_eq_left h.le).symm
  · exact (Nat.max_eq_right (not_lt.mp h)).symm

/-- Ordered corners, read as `short`s and as `int`s, are the bounds of the box between them. -/
theorem describes_ordered {x1 y1 z1 x2 y2 z2 : UInt16}
    (hx : x1.toNat < 32767 ∧ x2.toNat < 32767) (hy : y1.toNat < 32767 ∧ y2.toNat < 32767)
    (hz : z1.toNat < 32767 ∧ z2.toNat < 32767) :
    Bounds.Describes ⟨(ordered x1 x2).1.toInt16, (ordered z1 z2).1.toInt16, (ordered x1 x2).2.toNat,
      (ordered y1 y2).2.toNat, (ordered z1 z2).2.toNat⟩ (boxBetween x1 y1 z1 x2 y2 z2) where
  x1 := by
    rw [toInt_toInt16 (by rw [ordered_fst]; omega), ordered_fst]
    rfl
  z1 := by
    rw [toInt_toInt16 (by rw [ordered_fst]; omega), ordered_fst]
    rfl
  x2 := congrArg Nat.cast (ordered_snd x1 x2)
  y2 := congrArg Nat.cast (ordered_snd y1 y2)
  z2 := congrArg Nat.cast (ordered_snd z1 z2)
  short := by
    simp only [boxBetween]
    omega

/-- The nest starts at the entry of the box. -/
theorem place_ordered {x1 y1 z1 x2 y2 z2 : UInt16}
    (hx : x1.toNat < 32767 ∧ x2.toNat < 32767) (hy : y1.toNat < 32767 ∧ y2.toNat < 32767)
    (hz : z1.toNat < 32767 ∧ z2.toNat < 32767) :
    Loops.place ⟨.y, (ordered x1 x2).1.toInt16, (ordered y1 y2).1.toInt16, (ordered z1 z2).1.toInt16⟩ =
      (boxBetween x1 y1 z1 x2 y2 z2).entry := by
  simp only [Loops.place, Box.entry, boxBetween]
  rw [toInt_toInt16 (by rw [ordered_fst]; omega), toInt_toInt16 (by rw [ordered_fst]; omega),
    toInt_toInt16 (by rw [ordered_fst]; omega), ordered_fst, ordered_fst, ordered_fst]

/-! ## The loops -/

/-- What a run of the cuboid's loops ends with: the remaining cells are done, the flag is down and `hide`
    is as it was before. -/
structure CuboidDone (t₀ : Tunnel) (hidden : Bool) (before : List BuilderCall) (cells : List Cell)
    (b : Building) : Prop where
  pc : b.pc = .paste
  calls : setBlocks b.calls = setBlocks before ++ cuboidCalls t₀ cells
  start : b.state.cuboid.start = false
  hide : b.state.hide = hidden

/-- What the cuboid does in a cell. -/
def cuboidVisit (t : Tunnel) (c : Cell) : List BuilderCall :=
  if blockAt t c ≠ t.cuboid.block then
    [.setBlock (toShort c.x) (toShort c.y) (toShort c.z) t.cuboid.block (!t.cuboid.zlimit)]
  else []

/-- The iteration that ends the cuboid. -/
def cuboidEnd (hidden : Bool) : Iteration where
  next := .paste
  update := fun t => unhide hidden (cuboidStop t)
  calls := [.tunnelMsg (ascii "&0[&4LavaTunnel&0] &fz: Finished!")]

theorem cuboidBody_eq (t : Tunnel) (l : Loops) : cuboidBody t l = cuboidVisit t l.cell := by
  simp only [cuboidBody, cuboidVisit, blockAt, Loops.cell, toShort_toInt, bOffset]

/-- Where the other threads have left alone what the cuboid reads, they have not touched what it does. -/
theorem cuboid_congr {t t₀ : Tunnel} (h : cuboidView t = cuboidView t₀) :
    t.cuboid = t₀.cuboid ∧ cuboidBounds t = cuboidBounds t₀ ∧ cuboidVisit t = cuboidVisit t₀ := by
  simp only [cuboidView, Prod.mk.injEq] at h
  obtain ⟨hc, hm, hx, hz, -⟩ := h
  refine ⟨hc, by simp only [cuboidBounds, hc], ?_⟩
  funext c
  have hblock : blockAt t c = blockAt t₀ c := by simp only [blockAt, bOffset, calculateOffset, hm, hx, hz]
  unfold cuboidVisit
  rw [hblock, hc]

/-- **The cuboid is a nest.** -/
theorem cuboidNest (env : Env) {t₀ : Tunnel} (hhalt : t₀.cuboid.halt = false) :
    Nest env cuboidView (cuboidView t₀) (cuboidBounds t₀) .cuboidLoop
      (fun hidden c => (hidden, cuboidVisit t₀ c)) cuboidEnd where
  enter := by
    intro t hidden l ht h
    obtain ⟨hc, hbounds, hvisit⟩ := cuboid_congr ht
    have hcall : (if l.level = .z then cuboidBody t l else []) =
        if l.level = .z then cuboidVisit t₀ l.cell else [] := by
      rw [cuboidBody_eq, hvisit]
    simp only [builderIteration, cuboidIteration, hbounds, h, hc, hhalt, hcall, if_true, ite_self]
    rfl
  leave := by
    intro t hidden l l' ht h hl
    obtain ⟨-, hbounds, -⟩ := cuboid_congr ht
    simp only [builderIteration, cuboidIteration, hbounds, h, cuboidLeave, hl]
    rfl
  done := by
    intro t hidden l ht h hl
    obtain ⟨-, hbounds, -⟩ := cuboid_congr ht
    simp only [builderIteration, cuboidIteration, hbounds, h, cuboidLeave, hl]
    rfl

/-- The calls of its visits. -/
theorem visits_cuboid (t : Tunnel) (hidden : Bool) (cells : List Cell) :
    (visits (fun hidden c => (hidden, cuboidVisit t c)) hidden cells).1 = hidden ∧
      setBlocks (visits (fun hidden c => (hidden, cuboidVisit t c)) hidden cells).2 = cuboidCalls t cells := by
  induction cells with
  | nil => exact ⟨rfl, rfl⟩
  | cons c cs ih =>
      refine ⟨ih.1, ?_⟩
      show setBlocks (cuboidVisit t c ++ _) = _
      rw [setBlocks_append, ih.2]
      unfold cuboidVisit cuboidCalls
      by_cases h : blockAt t c = t.cuboid.block
      · simp [setBlocks, h]
      · simp [setBlocks, h]

/-- **From any place in the nest** the cuboid does the cells that remain, and ends. -/
theorem cuboidLoop_run (env : Env) {t₀ : Tunnel} {box : Box} (hb : (cuboidBounds t₀).Describes box)
    (hhalt : t₀.cuboid.halt = false) (hhide : t₀.hide = true) (hidden : Bool) (l : Loops)
    (hw : box.Within l.place) (fs : List (Tunnel → Tunnel)) (t : Tunnel) (calls : List BuilderCall)
    (hlen : fs.length = box.stepsLeft l.place) (hfs : ∀ f ∈ fs, Keeps cuboidView f)
    (ht : cuboidView t = cuboidView t₀) :
    CuboidDone t₀ hidden calls (box.remaining l.place) (Building.run env fs ⟨.cuboidLoop hidden l, t, calls⟩) := by
  obtain ⟨t', ht', hrun⟩ := (cuboidNest env hhalt).run hb l hw hidden fs t calls hlen hfs ht
  obtain ⟨hlocals, hcalls⟩ := visits_cuboid t₀ hidden (box.remaining l.place)
  rw [hrun, hlocals]
  refine ⟨rfl, ?_, rfl, ?_⟩
  · rw [setBlocks_append, setBlocks_append, hcalls]
    exact List.append_nil _
  · have hh : t'.hide = true := (congrArg (fun v => v.2.2.2.2) ht').trans hhide
    cases hidden with
    | true => exact hh
    | false => rfl

/-! ## The whole cuboid -/

/-- **No cell is filled twice.** -/
theorem nodup_cuboidCalls {t : Tunnel} (hsides : t.ShortSides)
    (h₁ : t.Inside t.cuboid.x1 t.cuboid.y1 t.cuboid.z1) (h₂ : t.Inside t.cuboid.x2 t.cuboid.y2 t.cuboid.z2) :
    (cuboidCalls t t.cuboid.box.cells).Nodup := by
  obtain ⟨hsx, hsy, hsz⟩ := hsides
  obtain ⟨hx1, hy1, hz1⟩ := h₁
  obtain ⟨hx2, hy2, hz2⟩ := h₂
  -- the coordinates of the box are `short`s
  have hshort : ∀ c ∈ t.cuboid.box.cells,
      (toShort c.x).toInt = c.x ∧ (toShort c.y).toInt = c.y ∧ (toShort c.z).toInt = c.z := by
    intro c hc
    obtain ⟨hx, hy, hz⟩ := Box.mem_cells.mp hc
    simp only [Cuboid.box, boxBetween] at hx hy hz
    exact ⟨toInt_toShort (by omega) (by omega), toInt_toShort (by omega) (by omega),
      toInt_toShort (by omega) (by omega)⟩
  apply List.Nodup.map_on
  · intro c hc c' hc' heq
    obtain ⟨hx, hy, hz⟩ := hshort c (List.mem_of_mem_filter hc)
    obtain ⟨hx', hy', hz'⟩ := hshort c' (List.mem_of_mem_filter hc')
    simp only [Prod.mk.injEq] at heq
    obtain ⟨hxx, hyy, hzz, -⟩ := heq
    rw [hxx, hx'] at hx
    rw [hyy, hy'] at hy
    rw [hzz, hz'] at hz
    exact Cell.ext hx.symm hy.symm hz.symm
  · exact (Box.nodup_cells _).filter _

end LavaTunnel
