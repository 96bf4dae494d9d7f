import LavaTunnel.Correctness.Cuboid
import LavaTunnel.Correctness.MapAccess
import LavaTunnel.Correctness.MapIndex

/-!
# `LavaTunnel.Correctness.MapBounds` — when the accesses lie in the map

The code never compares an offset with the size of the map. What keeps the offsets in it is an invariant: the level
is no deeper than wide and has a byte for each block (`Roomy`), and every cuboid and copy that waits for the builder
or is under way lies in the level, with the counters of its loops (`PlansInside`). It holds as long as the clicks
point into the level, and a new level has room for what is still to be built.
-/

namespace LavaTunnel

open Wire Wire.Prog Scan

/-! ## A level with room for its blocks -/

/-- A point of the level. -/
def Tunnel.Holds (t : Tunnel) (p : Point) : Prop := t.Inside p.1 p.2.1 p.2.2

instance (t : Tunnel) (p : Point) : Decidable (t.Holds p) := inferInstanceAs (Decidable (t.Inside _ _ _))

/-- A level the offsets fit in: it has no long side, is no deeper than wide, and an `int` counts its blocks. -/
structure Tunnel.Proper (t : Tunnel) : Prop where
  sides : t.ShortSides
  depth : t.lvlz.toNat ≤ t.lvlx.toNat
  volume : t.volume < 2 ^ 31

instance (t : Tunnel) : Decidable t.Proper :=
  decidable_of_iff (t.ShortSides ∧ t.lvlz.toNat ≤ t.lvlx.toNat ∧ t.volume < 2 ^ 31)
    ⟨fun h => ⟨h.1, h.2.1, h.2.2⟩, fun h => ⟨h.sides, h.depth, h.volume⟩⟩

/-- The map has a byte for each block. -/
structure Tunnel.Roomy (t : Tunnel) : Prop where
  proper : t.Proper
  alloc : (t.mapAlloc : Int) = t.volume

section Levels

variable {t : Tunnel}

/-- Where the level is no deeper than wide, a block of it has an offset in the map. -/
theorem Tunnel.Proper.offset (ht : t.Proper) {c : Coords} (hc : c ∈ t.blocks) :
    0 ≤ t.offset c ∧ t.offset c < t.volume := by
  obtain ⟨hx, hy, hz⟩ := hc
  have hdepth : (t.lvlz.toNat : Int) ≤ t.lvlx.toNat := by exact_mod_cast ht.depth
  -- a row of `lvlz` blocks is no longer than one of `lvlx`
  have hrow : c.2.2.toInt * t.lvlz.toNat ≤ c.2.2.toInt * t.lvlx.toNat := mul_le_mul_of_nonneg_left hdepth hz.1
  have hpos : 0 ≤ c.2.2.toInt * t.lvlz.toNat := mul_nonneg hz.1 (by omega)
  have hlayer := digit_lt hz hx
  have hbound := digit_lt (r := c.2.2.toInt * t.lvlz.toNat + c.1.toInt) hy
    ⟨by omega, lt_of_le_of_lt (by omega) hlayer.2⟩
  have hvolume : (t.lvly.toNat : Int) * (t.lvlz.toNat * t.lvlx.toNat) = t.volume := by
    unfold Tunnel.volume
    ring
  have hsum : c.2.1.toInt * (t.lvlz.toNat * t.lvlx.toNat) + (c.2.2.toInt * t.lvlz.toNat + c.1.toInt) =
      c.2.1.toInt * (t.lvlx.toNat * t.lvlz.toNat) + c.2.2.toInt * t.lvlz.toNat + c.1.toInt := by ring
  have hmax := ht.volume
  rw [hvolume, hsum] at hbound
  rw [Tunnel.offset, calculateOffset_eq, int32_of_range (by omega) (by omega)]
  exact hbound

/-- **The blocks of a level have their offsets in the map** just if the level is no deeper than wide. -/
theorem mapsTo_offset_iff (ht : t.Sized) :
    Set.MapsTo t.offset t.blocks (Set.Ico 0 t.volume) ↔ t.lvlz.toNat ≤ t.lvlx.toNat := by
  constructor
  · intro hmaps
    by_contra hdeep
    exact outside ht (not_le.mp hdeep) hmaps
  · intro hdepth c hc
    exact Tunnel.Proper.offset ⟨⟨ht.x.2, ht.y.2, ht.z.2⟩, hdepth, ht.volume⟩ hc

/-- A point of the level lies in the map. -/
theorem Tunnel.Roomy.point (ht : t.Roomy) {p : Point} (hp : t.Holds p) :
    0 ≤ pointOffset t p ∧ pointOffset t p < t.mapAlloc := by
  obtain ⟨hx, hy, hz⟩ := hp
  obtain ⟨sx, sy, sz⟩ := ht.proper.sides
  have hshort : ∀ {u : UInt16} {side : Nat}, u.toNat < side → side ≤ 32767 →
      0 ≤ u.toInt16.toInt ∧ u.toInt16.toInt < side := by
    intro u side hu hside
    rw [toInt_toInt16 (by omega)]
    omega
  have hmem : ((p.1.toInt16, p.2.1.toInt16, p.2.2.toInt16) : Coords) ∈ t.blocks :=
    ⟨hshort hx sx, hshort hy sy, hshort hz sz⟩
  have heq : pointOffset t p = t.offset (p.1.toInt16, p.2.1.toInt16, p.2.2.toInt16) := rfl
  rw [ht.alloc, heq]
  exact ht.proper.offset hmem

end Levels

/-! ## The counters of a nest -/

/-- The counters lie in the level, as far as they are set. In front of a loop condition its counter may be one
    too far. -/
def Loops.InLevel (t : Tunnel) (l : Loops) : Prop :=
  match l.level with
  | .y => 0 ≤ l.vy.toInt ∧ l.vy.toInt ≤ t.lvly.toNat
  | .x => (0 ≤ l.vy.toInt ∧ l.vy.toInt < t.lvly.toNat) ∧ 0 ≤ l.vx.toInt ∧ l.vx.toInt ≤ t.lvlx.toNat
  | .z => (0 ≤ l.vy.toInt ∧ l.vy.toInt < t.lvly.toNat) ∧ (0 ≤ l.vx.toInt ∧ l.vx.toInt < t.lvlx.toNat) ∧
      0 ≤ l.vz.toInt ∧ l.vz.toInt ≤ t.lvlz.toNat

instance (t : Tunnel) (l : Loops) : Decidable (l.InLevel t) := by
  unfold Loops.InLevel
  cases l.level <;> infer_instance

/-- The bounds of a nest lie in the level. -/
structure Bounds.InLevel (t : Tunnel) (b : Bounds) : Prop where
  x1 : 0 ≤ b.x1.toInt ∧ b.x1.toInt ≤ t.lvlx.toNat
  z1 : 0 ≤ b.z1.toInt ∧ b.z1.toInt ≤ t.lvlz.toNat
  x2 : b.x2 < t.lvlx.toNat
  y2 : b.y2 < t.lvly.toNat
  z2 : b.z2 < t.lvlz.toNat

section Nests

variable {t : Tunnel} {b : Bounds} {l l' : Loops}

/-- What the innermost body accesses. -/
theorem nestAccesses_in_map (ht : t.Roomy) (hb : b.InLevel t) (hl : l.InLevel t) {j : Int}
    (hj : j ∈ nestAccesses t b l) : 0 ≤ j ∧ j < t.mapAlloc := by
  unfold nestAccesses at hj
  split_ifs at hj with hbody
  · obtain ⟨hinside, hlevel⟩ := hbody
    unfold Loops.InLevel at hl
    unfold Loops.inside at hinside
    rw [hlevel] at hl hinside
    obtain ⟨hy, hx, hz⟩ := hl
    have hz2 : l.vz.toInt ≤ b.z2 := of_decide_eq_true hinside
    have hmax : l.vz.toInt < t.lvlz.toNat := lt_of_le_of_lt hz2 hb.z2
    have hmem : ((l.vx, l.vy, l.vz) : Coords) ∈ t.blocks := ⟨hx, hy, hz.1, hmax⟩
    have heq : calculateOffset t l.vx l.vy l.vz = t.offset (l.vx, l.vy, l.vz) := rfl
    rw [List.mem_singleton.mp hj, ht.alloc, heq]
    exact ht.proper.offset hmem
  · exact absurd hj List.not_mem_nil

/-- Into a loop, or through the innermost body. -/
theorem inLevel_enter (ht : t.ShortSides) (hb : b.InLevel t) (hl : l.InLevel t) (h : l.inside b = true) :
    (l.enter b).InLevel t := by
  obtain ⟨level, vx, vy, vz⟩ := l
  -- the loop that is entered starts at the lower bound, which is inside
  cases level with
  | y =>
      have hle : vy.toInt ≤ b.y2 := of_decide_eq_true h
      have hvy : 0 ≤ vy.toInt ∧ vy.toInt ≤ t.lvly.toNat := hl
      exact ⟨⟨hvy.1, lt_of_le_of_lt hle hb.y2⟩, hb.x1⟩
  | x =>
      have hle : vx.toInt ≤ b.x2 := of_decide_eq_true h
      obtain ⟨hvy, hvx⟩ : (0 ≤ vy.toInt ∧ vy.toInt < t.lvly.toNat) ∧ 0 ≤ vx.toInt ∧ vx.toInt ≤ t.lvlx.toNat := hl
      exact ⟨hvy, ⟨hvx.1, lt_of_le_of_lt hle hb.x2⟩, hb.z1⟩
  | z =>
      have hle : vz.toInt ≤ b.z2 := of_decide_eq_true h
      obtain ⟨hvy, hvx, hvz⟩ : (0 ≤ vy.toInt ∧ vy.toInt < t.lvly.toNat) ∧
        (0 ≤ vx.toInt ∧ vx.toInt < t.lvlx.toNat) ∧ 0 ≤ vz.toInt ∧ vz.toInt ≤ t.lvlz.toNat := hl
      have hz2 := hb.z2
      have hmax := ht.2.2
      have hsucc : (vz + 1).toInt = vz.toInt + 1 := toInt_succ (by omega)
      have hnext : 0 ≤ (vz + 1).toInt ∧ (vz + 1).toInt ≤ t.lvlz.toNat := by omega
      exact ⟨hvy, hvx, hnext⟩

/-- Out of a loop, which counts the one around it. -/
theorem inLevel_leave (ht : t.ShortSides) (hl : l.InLevel t) (h : l.leave = some l') : l'.InLevel t := by
  obtain ⟨level, vx, vy, vz⟩ := l
  -- the counter of the loop around grows by one: it ends at most one behind the level
  cases level with
  | y => exact absurd h (by simp [Loops.leave])
  | x =>
      obtain rfl := Option.some.inj h
      obtain ⟨hvy, -⟩ : (0 ≤ vy.toInt ∧ vy.toInt < t.lvly.toNat) ∧ 0 ≤ vx.toInt ∧ vx.toInt ≤ t.lvlx.toNat := hl
      have hmax := ht.2.1
      have hsucc : (vy + 1).toInt = vy.toInt + 1 := toInt_succ (by omega)
      have hnext : 0 ≤ (vy + 1).toInt ∧ (vy + 1).toInt ≤ t.lvly.toNat := by omega
      exact hnext
  | z =>
      obtain rfl := Option.some.inj h
      obtain ⟨hvy, hvx, -⟩ : (0 ≤ vy.toInt ∧ vy.toInt < t.lvly.toNat) ∧
        (0 ≤ vx.toInt ∧ vx.toInt < t.lvlx.toNat) ∧ 0 ≤ vz.toInt ∧ vz.toInt ≤ t.lvlz.toNat := hl
      have hmax := ht.1
      have hsucc : (vx + 1).toInt = vx.toInt + 1 := toInt_succ (by omega)
      have hnext : 0 ≤ (vx + 1).toInt ∧ (vx + 1).toInt ≤ t.lvlx.toNat := by omega
      exact ⟨hvy, hnext⟩

end Nests

/-! ## What is still to be built -/

/-- What the builder is at lies in the level. -/
def UnderWayInside (t : Tunnel) : Locals → Prop
  | .builder (.copyLoop _ l) => (∀ p ∈ t.copy.corners, t.Holds p) ∧ l.InLevel t
  | .builder (.cuboidLoop _ l) => (∀ p ∈ t.cuboid.corners, t.Holds p) ∧ l.InLevel t
  | _ => True

/-- Every cuboid and copy that waits for the builder, or is under way, lies in the level. -/
def PlansInside (t : Tunnel) (l : Locals) : Prop :=
  (t.cuboid.start = true → ∀ p ∈ t.cuboid.corners, t.Holds p) ∧
    (t.copy.start = true → ∀ p ∈ t.copy.corners, t.Holds p) ∧ UnderWayInside t l

instance (t : Tunnel) (ps : List Point) : Decidable (∀ p ∈ ps, t.Holds p) := List.decidableBAll _ _

instance (t : Tunnel) (l : Locals) : Decidable (UnderWayInside t l) := by
  unfold UnderWayInside
  split <;> infer_instance

instance (t : Tunnel) (l : Locals) : Decidable (PlansInside t l) := inferInstanceAs (Decidable (_ ∧ _ ∧ _))

section Plans

variable {t t' : Tunnel}

theorem holds_congr (hlevel : t'.level = t.level) (p : Point) : t'.Holds p ↔ t.Holds p := by
  have hx : t'.lvlx = t.lvlx := congrArg (fun level => level.1) hlevel
  have hy : t'.lvly = t.lvly := congrArg (fun level => level.2.1) hlevel
  have hz : t'.lvlz = t.lvlz := congrArg (fun level => level.2.2.1) hlevel
  unfold Tunnel.Holds Tunnel.Inside
  rw [hx, hy, hz]

theorem inLevel_congr (hlevel : t'.level = t.level) (l : Loops) : l.InLevel t' ↔ l.InLevel t := by
  have hx : t'.lvlx = t.lvlx := congrArg (fun level => level.1) hlevel
  have hy : t'.lvly = t.lvly := congrArg (fun level => level.2.1) hlevel
  have hz : t'.lvlz = t.lvlz := congrArg (fun level => level.2.2.1) hlevel
  unfold Loops.InLevel
  rw [hx, hy, hz]

theorem roomy_congr (hlevel : t'.level = t.level) (h : t.Roomy) : t'.Roomy := by
  have hx : t'.lvlx = t.lvlx := congrArg (fun level => level.1) hlevel
  have hy : t'.lvly = t.lvly := congrArg (fun level => level.2.1) hlevel
  have hz : t'.lvlz = t.lvlz := congrArg (fun level => level.2.2.1) hlevel
  have halloc : t'.mapAlloc = t.mapAlloc := congrArg (fun level => level.2.2.2) hlevel
  obtain ⟨⟨⟨sx, sy, sz⟩, hdepth, hvolume⟩, hall⟩ := h
  have heq : t'.volume = t.volume := by
    unfold Tunnel.volume
    rw [hx, hy, hz]
  exact ⟨⟨⟨hx ▸ sx, hy ▸ sy, hz ▸ sz⟩, by rw [hx, hz]; exact hdepth, heq ▸ hvolume⟩, by rw [halloc, heq]; exact hall⟩

/-- Some points of the level, after a step that keeps the level. -/
theorem corners_congr (hlevel : t'.level = t.level) {ps ps' : List Point} (hps : ps' = ps)
    (h : ∀ p ∈ ps, t.Holds p) : ∀ p ∈ ps', t'.Holds p := by
  subst hps
  exact fun p hp => (holds_congr hlevel p).mpr (h p hp)

/-- A step that keeps the level and what is to be built. -/
theorem plansInside_congr (hlevel : t'.level = t.level) (hplans : t'.plans = t.plans) {l : Locals}
    (h : PlansInside t l) : PlansInside t' l := by
  have hstart : t'.cuboid.start = t.cuboid.start := congrArg (fun plans => plans.1.1) hplans
  have hcuboid : t'.cuboid.corners = t.cuboid.corners := congrArg (fun plans => plans.1.2) hplans
  have hstart' : t'.copy.start = t.copy.start := congrArg (fun plans => plans.2.1) hplans
  have hcopy : t'.copy.corners = t.copy.corners := congrArg (fun plans => plans.2.2) hplans
  obtain ⟨h₁, h₂, h₃⟩ := h
  refine ⟨fun hs => corners_congr hlevel hcuboid (h₁ (hstart ▸ hs)),
    fun hs => corners_congr hlevel hcopy (h₂ (hstart' ▸ hs)), ?_⟩
  unfold UnderWayInside at h₃ ⊢
  split
  · exact ⟨corners_congr hlevel hcopy h₃.1, (inLevel_congr hlevel _).mpr h₃.2⟩
  · exact ⟨corners_congr hlevel hcuboid h₃.1, (inLevel_congr hlevel _).mpr h₃.2⟩
  · trivial

/-- The bounds of a nest between two points of the level. -/
theorem inLevel_bounds (ht : t.ShortSides) {x1 y1 z1 x2 y2 z2 : UInt16} (h₁ : t.Holds (x1, y1, z1))
    (h₂ : t.Holds (x2, y2, z2)) :
    (⟨x1.toInt16, z1.toInt16, x2.toNat, y2.toNat, z2.toNat⟩ : Bounds).InLevel t := by
  obtain ⟨hx, -, hz⟩ := h₁
  obtain ⟨sx, sy, sz⟩ := ht
  have hshort : ∀ {u : UInt16} {side : Nat}, u.toNat < side → side ≤ 32767 →
      0 ≤ u.toInt16.toInt ∧ u.toInt16.toInt ≤ side := by
    intro u side hu hside
    rw [toInt_toInt16 (by omega)]
    omega
  obtain ⟨hx₂, hy₂, hz₂⟩ := h₂
  exact ⟨hshort hx sx, hshort hz sz, Int.ofNat_lt.mpr hx₂, Int.ofNat_lt.mpr hy₂, Int.ofNat_lt.mpr hz₂⟩

theorem inLevel_start (ht : t.ShortSides) {p : Point} (h : t.Holds p) (x z : Int16) :
    (⟨.y, x, p.2.1.toInt16, z⟩ : Loops).InLevel t := by
  have hy := h.2.1
  have hmax := ht.2.1
  have heq : p.2.1.toInt16.toInt = p.2.1.toNat := toInt_toInt16 (by omega)
  have hrange : 0 ≤ p.2.1.toInt16.toInt ∧ p.2.1.toInt16.toInt ≤ t.lvly.toNat := by omega
  exact hrange

/-- Two points of the level with their coordinates in order. -/
theorem holds_ordered {x1 y1 z1 x2 y2 z2 : UInt16} (h₁ : t.Holds (x1, y1, z1)) (h₂ : t.Holds (x2, y2, z2)) :
    t.Holds ((ordered x1 x2).1, (ordered y1 y2).1, (ordered z1 z2).1) ∧
      t.Holds ((ordered x1 x2).2, (ordered y1 y2).2, (ordered z1 z2).2) := by
  obtain ⟨hx₁, hy₁, hz₁⟩ := h₁
  obtain ⟨hx₂, hy₂, hz₂⟩ := h₂
  have hmin : ∀ {a b : UInt16} {side : Nat}, a.toNat < side → b.toNat < side →
      (ordered a b).1.toNat < side ∧ (ordered a b).2.toNat < side := by
    intro a b side ha hb
    rw [ordered_fst, ordered_snd]
    omega
  exact ⟨⟨(hmin hx₁ hx₂).1, (hmin hy₁ hy₂).1, (hmin hz₁ hz₂).1⟩,
    ⟨(hmin hx₁ hx₂).2, (hmin hy₁ hy₂).2, (hmin hz₁ hz₂).2⟩⟩

theorem copyBounds_inLevel (ht : t.ShortSides) (h : ∀ p ∈ t.copy.corners, t.Holds p) : (copyBounds t).InLevel t :=
  inLevel_bounds ht (h _ List.mem_cons_self) (h _ (List.mem_cons_of_mem _ List.mem_cons_self))

theorem cuboidBounds_inLevel (ht : t.ShortSides) (h : ∀ p ∈ t.cuboid.corners, t.Holds p) :
    (cuboidBounds t).InLevel t :=
  inLevel_bounds ht (h _ List.mem_cons_self) (h _ (List.mem_cons_of_mem _ List.mem_cons_self))

/-- Two corners, one by one. -/
theorem forall_corners {p q : Point} (hp : t.Holds p) (hq : t.Holds q) : ∀ r ∈ [p, q], t.Holds r := by
  intro r hr
  rcases List.mem_cons.mp hr with rfl | hr
  · exact hp
  · rw [List.mem_singleton.mp hr]
    exact hq

end Plans

/-! ## The builder stays in the level -/

section Builder

variable {env : Env} {t : Tunnel}

theorem BuilderStep.level {pc next : Pc} {f : Tunnel → Tunnel} (h : BuilderStep env t pc next f) :
    (f t).level = t.level := by
  cases h <;> rfl

theorem plansInside_copyStart (ht : t.ShortSides) (hstart : t.copy.start = true)
    (h : PlansInside t (.builder .copy)) :
    PlansInside ((copyStart t).update t) (.builder (copyStart t).next) := by
  obtain ⟨h₁, h₂, -⟩ := h
  have hcorners := h₂ hstart
  obtain ⟨hnear, hfar⟩ := holds_ordered (hcorners _ List.mem_cons_self)
    (hcorners _ (List.mem_cons_of_mem _ List.mem_cons_self))
  have hsorted : ∀ p ∈ (copySorted t.copy).corners, t.Holds p := forall_corners hnear hfar
  refine ⟨h₁, fun _ => hsorted, ?_⟩
  unfold copyStart
  dsimp only
  split_ifs
  · trivial
  · exact ⟨hsorted, inLevel_start ht hnear _ _⟩

theorem plansInside_copyLoop (ht : t.ShortSides) {copyBuf : Bytes} {l : Loops}
    (h : PlansInside t (.builder (.copyLoop copyBuf l))) :
    PlansInside ((copyIteration t copyBuf l).update t) (.builder (copyIteration t copyBuf l).next) := by
  obtain ⟨h₁, h₂, hcorners, hl⟩ := h
  unfold copyIteration
  split
  · rename_i hinside
    exact ⟨h₁, h₂, hcorners, inLevel_enter ht (copyBounds_inLevel ht hcorners) hl hinside⟩
  · cases hleave : l.leave with
    | some l' => exact ⟨h₁, h₂, hcorners, inLevel_leave ht hl hleave⟩
    | none => exact ⟨h₁, h₂, trivial⟩

theorem plansInside_cuboidStart (ht : t.ShortSides) (hstart : t.cuboid.start = true)
    (h : PlansInside t (.builder .cuboid)) :
    PlansInside ((cuboidStart t).update t) (.builder (cuboidStart t).next) := by
  obtain ⟨h₁, h₂, -⟩ := h
  have hcorners := h₁ hstart
  obtain ⟨hnear, hfar⟩ := holds_ordered (hcorners _ List.mem_cons_self)
    (hcorners _ (List.mem_cons_of_mem _ List.mem_cons_self))
  have hsorted : ∀ p ∈ (cuboidSorted t.cuboid).corners, t.Holds p := forall_corners hnear hfar
  exact ⟨fun _ => hsorted, h₂, hsorted, inLevel_start ht hnear _ _⟩

theorem plansInside_cuboidLoop (ht : t.ShortSides) {hidden : Bool} {l : Loops}
    (h : PlansInside t (.builder (.cuboidLoop hidden l))) :
    PlansInside ((cuboidIteration t hidden l).update t) (.builder (cuboidIteration t hidden l).next) := by
  obtain ⟨h₁, h₂, hcorners, hl⟩ := h
  unfold cuboidIteration cuboidLeave
  split
  · rename_i hinside
    split
    · cases hleave : l.leave with
      | some l' => exact ⟨fun hs => absurd hs (by simp [cuboidStop]), h₂, hcorners, inLevel_leave ht hl hleave⟩
      | none => exact ⟨fun hs => absurd hs (by simp [cuboidStop, unhide]), h₂, trivial⟩
    · exact ⟨h₁, h₂, hcorners, inLevel_enter ht (cuboidBounds_inLevel ht hcorners) hl hinside⟩
  · cases hleave : l.leave with
    | some l' => exact ⟨h₁, h₂, hcorners, inLevel_leave ht hl hleave⟩
    | none => exact ⟨fun hs => absurd hs (by simp [cuboidStop, unhide]), h₂, trivial⟩

/-- **An iteration of the builder** keeps what is to be built in the level. -/
theorem plansInside_builder (ht : t.ShortSides) {pc : Pc} (h : PlansInside t (.builder pc)) :
    PlansInside ((builderIteration env t pc).update t) (.builder (builderIteration env t pc).next) := by
  have hstep := builderStep env t pc
  obtain ⟨h₁, h₂, -⟩ := id h
  -- only the copy and the cuboid access the map; the paste keeps the plans of both
  cases pc with
  | paste =>
      generalize builderIteration env t .paste = it at hstep
      obtain ⟨next, f, calls⟩ := it
      dsimp only at hstep
      cases hstep <;> exact ⟨h₁, h₂, trivial⟩
  | pasteLoop p l =>
      generalize builderIteration env t (.pasteLoop p l) = it at hstep
      obtain ⟨next, f, calls⟩ := it
      dsimp only at hstep
      cases hstep <;> exact ⟨h₁, h₂, trivial⟩
  | copy =>
      by_cases hstart : t.copy.start = true
      · rw [iteration_copy_start env hstart]
        exact plansInside_copyStart ht hstart h
      · rw [iteration_copy_idle env (by simpa using hstart)]
        exact ⟨h₁, h₂, trivial⟩
  | copyLoop copyBuf l => exact plansInside_copyLoop ht h
  | copyWrite copyBuf => exact ⟨h₁, fun hs => absurd hs (by simp [builderIteration, copyFinish]), trivial⟩
  | cuboid =>
      by_cases hstart : t.cuboid.start = true ∧ t.cuboid.type = 0
      · rw [iteration_cuboid_start env hstart.1 hstart.2]
        exact plansInside_cuboidStart ht hstart.1 h
      · have hidle : builderIteration env t .cuboid = { next := .paste } := if_neg hstart
        rw [hidle]
        exact ⟨h₁, h₂, trivial⟩
  | cuboidLoop hidden l => exact plansInside_cuboidLoop ht h
  | crashed => exact h

/-- What the builder accesses lies in the map. -/
theorem builder_accesses_in_map (ht : t.Roomy) {pc : Pc} (h : PlansInside t (.builder pc)) {input : Bytes} {j : Int}
    (hj : j ∈ mapAccesses env t input (.builder pc)) : 0 ≤ j ∧ j < t.mapAlloc := by
  obtain ⟨-, -, hway⟩ := h
  cases pc with
  | copyLoop copyBuf l => exact nestAccesses_in_map ht (copyBounds_inLevel ht.proper.sides hway.1) hway.2 hj
  | cuboidLoop hidden l =>
      have hj' : j ∈ (if t.cuboid.halt then [] else nestAccesses t (cuboidBounds t) l) := hj
      by_cases hhalt : t.cuboid.halt = true
      · rw [if_pos hhalt] at hj'
        exact absurd hj' List.not_mem_nil
      · rw [if_neg hhalt] at hj'
        exact nestAccesses_in_map ht (cuboidBounds_inLevel ht.proper.sides hway.1) hway.2 hj'
  | _ => exact absurd hj List.not_mem_nil

end Builder

/-! ## What a turn does to the level and to what is to be built -/

section Steps

variable (env : Env) {t : Tunnel} {input : Bytes}

/-- What a turn of the other threads can do. -/
inductive PlanStep (env : Env) (t : Tunnel) (input : Bytes) (who : ThreadId) (l : Locals) :
    Option Locals → Tunnel → Prop
  | keep {r : Option Locals} {t' : Tunnel} (hload : ¬ LoadsLevel who input l) (hlevel : t'.level = t.level)
      (hplans : t'.plans = t.plans) : PlanStep env t input who l r t'
  | login {r : Option Locals} {t' : Tunnel} (hload : ¬ LoadsLevel who input l) (hlevel : t'.level = t.level)
      (hplans : t'.plans = ((false, t.cuboid.corners), t.copy.start, t.copy.corners)) :
      PlanStep env t input who l r t'
  | click {r : Option Locals} (hload : ¬ LoadsLevel who input l) (blocktype : UInt8) (hl : ∃ l', l = .tunnelServer l')
      (hid : byte input = 0x05) (hz : t.zPlace = true) :
      PlanStep env t input who l r (pointed (arrivingPoint env input) blocktype t)
  | load {r : Option Locals} (hload : LoadsLevel who input l)
      (herror : ¬ Client.ZlibError env (arrivingLevel env input t)) :
      PlanStep env t input who l r (Client.inflated env (arrivingLevel env input t))
  | fail (hload : LoadsLevel who input l) (herror : Client.ZlibError env (arrivingLevel env input t)) :
      PlanStep env t input who l none (arrivingLevel env input t)

theorem Guarded.planStep {α : Type} {c : Code α} (h : Guarded everything c) (i : Bytes) {who : ThreadId} {l : Locals}
    (hload : ¬ LoadsLevel who input l) (r : Option Locals) : PlanStep env t input who l r (c.run i t).state := by
  have hkept := h.run_kept i t
  exact .keep hload (congrArg (fun kept => kept.2.1) hkept) (congrArg (fun kept => kept.2.2) hkept)

/-- A round of a dispatch loop for a peer that has gone. -/
theorem run_recv_gone {α : Type} (gone : Code α) (dispatch : UInt8 → Code α) : (do
      let r ← recvW 1
      if r.1 < 1 then gone else dispatch (byte (env.fill 1 r.2))).run [] t = gone.run ([] : Bytes) t := by
  rw [run_recvW_bind]
  rfl

theorem state_setBlockClick (i : Bytes) : ∃ blocktype, ((Server.setBlockClick env).run i t).state =
    if t.zPlace then pointed (pointIn env i) blocktype t else t := by
  unfold Server.setBlockClick
  rw [run_recvVarW_bind, run_recvVarW_bind, run_recvVarW_bind, run_recvVarW_bind, run_recvVarW_bind,
    run_getState_bind]
  by_cases hz : t.zPlace = true
  · obtain ⟨out, hpoint⟩ := takes_point (byte ((env.var 4).fill 1 (((((i.drop 2).drop 2).drop 2).drop 1).take 1))) t
      (env.fill 2 (i.take 2)) ((env.var 1).fill 2 ((i.drop 2).take 2)) ((env.var 2).fill 2 (((i.drop 2).drop 2).take 2))
    refine ⟨byte ((env.var 4).fill 1 (((((i.drop 2).drop 2).drop 2).drop 1).take 1)), ?_⟩
    rw [if_pos hz, if_pos hz]
    exact congrArg Outcome.state (hpoint _)
  · refine ⟨0, ?_⟩
    rw [if_neg hz, if_neg hz, run_packet]

/-- What is done with the level once its size is known. -/
def finish (env : Env) (t : Tunnel) : Code Unit :=
  if Client.return1 env t = -5 ∨ Client.return1 env t = -4 ∨ Client.return1 env t = -3 then Prog.exit
  else update (Client.inflated env)

theorem run_levelFinalize (i : Bytes) : ∃ rest out, (Client.levelFinalize env).run i t =
    ((finish env (sized (pointIn env i) t)).run rest (sized (pointIn env i) t)).after out := by
  unfold Client.levelFinalize
  rw [run_recvVarW_bind, run_recvVarW_bind, run_recvVarW_bind, run_update_bind, run_packet_bind, run_getState_bind]
  exact ⟨_, _, rfl⟩

/-- One of the three statuses: the program ends, and the level has its new size but no blocks. -/
theorem run_levelFinalize_error (i : Bytes) (herror : Client.ZlibError env (sized (pointIn env i) t)) :
    ((Client.levelFinalize env).run i t).result = none ∧
      ((Client.levelFinalize env).run i t).state = sized (pointIn env i) t := by
  have hfinish : finish env (sized (pointIn env i) t) = Prog.exit := if_pos herror
  obtain ⟨rest, out, hrun⟩ := run_levelFinalize env (t := t) i
  rw [hfinish] at hrun
  rw [hrun]
  exact ⟨rfl, rfl⟩

theorem run_levelFinalize_done (i : Bytes) (herror : ¬ Client.ZlibError env (sized (pointIn env i) t)) :
    ((Client.levelFinalize env).run i t).result = some () ∧
      ((Client.levelFinalize env).run i t).state = Client.inflated env (sized (pointIn env i) t) := by
  have hfinish : finish env (sized (pointIn env i) t) = update (Client.inflated env) := if_neg herror
  obtain ⟨rest, out, hrun⟩ := run_levelFinalize env (t := t) i
  rw [hfinish] at hrun
  rw [hrun]
  exact ⟨rfl, rfl⟩

theorem run_levelFinal_error (l : McLocals) (i : Bytes) (herror : Client.ZlibError env (sized (pointIn env i) t)) :
    ((Client.levelFinal env l).run i t).result = none ∧
      ((Client.levelFinal env l).run i t).state = sized (pointIn env i) t := by
  obtain ⟨hresult, hstate⟩ := run_levelFinalize_error env i herror
  unfold Client.levelFinal
  rw [run_bind]
  unfold andThen
  rw [hresult]
  exact ⟨rfl, hstate⟩

theorem state_levelFinal (l : McLocals) (i : Bytes) (herror : ¬ Client.ZlibError env (sized (pointIn env i) t)) :
    ((Client.levelFinal env l).run i t).state = Client.inflated env (sized (pointIn env i) t) := by
  obtain ⟨hresult, hstate⟩ := run_levelFinalize_done env i herror
  unfold Client.levelFinal
  rw [run_bind]
  unfold andThen
  rw [hresult]
  -- the greeting writes to a socket only
  cases l.joined
  · exact hstate
  · exact hstate

/-! ### By threads -/

theorem planStep_tunnelServer (l : ServerLocals) (r : Option Locals) :
    PlanStep env t input .tunnelServer (.tunnelServer l) r ((tunnelServer env l).run input t).state := by
  have hload : ∀ i, ¬ LoadsLevel .tunnelServer i (.tunnelServer l) := fun _ => id
  cases input with
  | nil =>
      have hgone : (tunnelServer env l).run ([] : Bytes) t = ⟨none, [], t, []⟩ :=
        run_recv_gone env Prog.exit fun id => Server.dispatch env id l
      rw [hgone]
      exact .keep (hload _) rfl rfl
  | cons id rest =>
      have hround : (tunnelServer env l).run (id :: rest) t = (Server.dispatch env id l).run rest t :=
        run_recv_id env _ (fun id => Server.dispatch env id l) id rest t
      rw [hround]
      -- a click plans, a login closes the plans, and everything else keeps them
      by_cases hclick : id = 0x05
      · subst hclick
        rw [Server.dispatch_of_mem (Server.own_mem (e := (0x05, Server.setBlockClick env)) (by repeat constructor)),
          run_bind_pure]
        obtain ⟨blocktype, hstate⟩ := state_setBlockClick env (t := t) rest
        rw [hstate]
        by_cases hz : t.zPlace = true
        · rw [if_pos hz]
          exact .click (hload _) blocktype ⟨l, rfl⟩ rfl hz
        · rw [if_neg hz]
          exact .keep (hload _) rfl rfl
      by_cases hlogin : id = 0x00 ∧ l.fucked = false
      · unfold Server.dispatch
        rw [if_pos hlogin]
        unfold Server.login
        rw [run_recvVarW_bind, run_recvVarW_bind, run_recvVarW_bind, run_recvW_bind, run_update_bind]
        exact .login (hload _) rfl rfl
      · obtain ⟨c, hc, hdispatch⟩ := Server.guarded_other (S := everything) env (fun _ => rfl) hclick hlogin
        rw [hdispatch, run_bind_pure]
        exact Guarded.planStep env hc rest (hload _) r

theorem planStep_mcConnect (l : McLocals) :
    PlanStep env t input .mcConnect (.mcConnect l) (((mcConnect env l).run input t).result.map Locals.mcConnect)
      ((mcConnect env l).run input t).state := by
  have hload : ∀ i, byte i ≠ 0x04 → ¬ LoadsLevel .mcConnect i (.mcConnect l) := fun _ hne h => hne h.2
  cases input with
  | nil =>
      have hgone : (mcConnect env l).run ([] : Bytes) t = Client.disconnected.run ([] : Bytes) t :=
        run_recv_gone env Client.disconnected fun id => Client.dispatch env id l
      rw [hgone]
      exact Guarded.planStep env Client.guarded_disconnected _ (hload _ (by decide)) _
  | cons id rest =>
      have hround : (mcConnect env l).run (id :: rest) t = (Client.dispatch env id l).run rest t :=
        run_recv_id env _ (fun id => Client.dispatch env id l) id rest t
      rw [hround]
      -- a level brings the new size, or it ends the tunnel; a set block keeps the plans
      by_cases hlevel : id = 0x04
      · subst hlevel
        have hdispatch : Client.dispatch env 0x04 l = Client.levelFinal env l := rfl
        rw [hdispatch]
        by_cases herror : Client.ZlibError env (sized (pointIn env rest) t)
        · obtain ⟨hresult, hstate⟩ := run_levelFinal_error env l rest herror
          rw [hresult, hstate]
          exact .fail ⟨rfl, rfl⟩ herror
        · rw [state_levelFinal env l rest herror]
          exact .load ⟨rfl, rfl⟩ herror
      by_cases hset : id = 0x06
      · subst hset
        rw [Client.dispatch_of_mem (Client.own_mem (e := (0x06, Client.setBlockPacket env)) (by repeat constructor)),
          run_bind_pure]
        exact Guarded.planStep env (Client.guarded_setBlockPacket env fun _ => rfl) rest
          (hload (0x06 :: rest) hlevel) _
      · exact Guarded.planStep env (Client.guarded_other env (fun _ => rfl) ⟨hlevel, hset⟩ l) rest
          (hload (id :: rest) hlevel) _

variable (t input) in
/-- **What a turn of the other threads does.** -/
theorem planStep {who : ThreadId} (hwho : who ≠ .builder) (l : Locals) :
    PlanStep env t input who l ((round env who l).run input t).result ((round env who l).run input t).state := by
  -- a thread that stands on another thread's code keeps everything
  cases who with
  | main =>
      cases l with
      | main =>
          have hconsole : Guarded everything (do console env; pure Locals.main) :=
            Tame.bind (guarded_console env fun _ => rfl) fun _ => Tame.pure _
          exact Guarded.planStep env hconsole input id _
      | mcConnect l => exact .keep (fun h => absurd h.1 (by decide)) rfl rfl
      | _ => exact .keep id rfl rfl
  | tunnelServer =>
      cases l with
      | tunnelServer l =>
          unfold round
          rw [run_bind_pure]
          exact planStep_tunnelServer env l _
      | mcConnect l => exact .keep (fun h => absurd h.1 (by decide)) rfl rfl
      | _ => exact .keep id rfl rfl
  | mcConnect =>
      cases l with
      | connecting =>
          have hlogin : Guarded everything (do mcLogin; pure (Locals.mcConnect {})) :=
            Tame.bind guarded_mcLogin fun _ => Tame.pure _
          exact Guarded.planStep env hlogin input id _
      | mcConnect l =>
          unfold round
          rw [run_bind_pure]
          exact planStep_mcConnect env l
      | _ => exact .keep id rfl rfl
  | builder => exact absurd rfl hwho

variable (t input) in
/-- The builder makes calls, which leave the state alone. -/
theorem run_builder (pc : Pc) : ((builder env pc).run input t).state = (builderIteration env t pc).update t ∧
    (((builder env pc).run input t).result = none ∨
      ((builder env pc).run input t).result = some (builderIteration env t pc).next) := by
  -- the calls only write, so the state is what the iteration makes of it
  have hcalls : ∀ calls : List BuilderCall, (forEach perform calls).Local id fun _ _ => True := by
    refine fun calls => Local.forEach (fun call => ?_) calls
    cases call with
    | setBlock x y z bid sendpos =>
        exact Local.bind (Local.onlyIf ⟨trivial, trivial, trivial, trivial⟩) fun _ => ⟨trivial, trivial⟩
    | tunnelMsg msg => exact ⟨trivial, trivial⟩
  obtain ⟨a, t', out, htakes, ht'⟩ :=
    (hcalls (builderIteration env t pc).calls).takes ((builderIteration env t pc).update t)
  have ht : t' = (builderIteration env t pc).update t := ht'
  have hrun := htakes input
  rw [List.nil_append, ht] at hrun
  unfold builder
  rw [run_getState_bind]
  dsimp only
  rw [run_update_bind, run_bind_of hrun]
  generalize (builderIteration env t pc).next = next
  cases next with
  | crashed => exact ⟨rfl, Or.inl rfl⟩
  | _ => exact ⟨rfl, Or.inr rfl⟩

end Steps

/-! ## The condition -/

/-- A click points into the level, and so did the first click of the operation that this one starts. -/
def ClickInside (t : Tunnel) (p : Point) : Prop :=
  t.Holds p ∧ (t.cuboid.place = true → t.points = 1 → t.Holds (t.cuboid.x1, t.cuboid.y1, t.cuboid.z1)) ∧
    (t.copy.place = true → (if t.cuboid.place then t.points = 0 else t.points = 1) →
      t.Holds (t.copy.x1, t.copy.y1, t.copy.z1))

instance (t : Tunnel) (p : Point) : Decidable (ClickInside t p) := by
  unfold ClickInside
  infer_instance

/-- The turn stays in the map: clicks and set-block packets point into the level, a new level is proper and has room
    for what is still to be built, and `dump` has something to show. `building` is where the builder stands. -/
def StaysInMap (env : Env) (t : Tunnel) (building : Locals) (input : Bytes) : Locals → Prop
  | .main => byte (input.take 64) = 39 → cstr ((input.take 64).drop 1) = ascii "dump" → 10000 ≤ t.mapAlloc
  | .tunnelServer _ =>
      (byte input = 0x05 → t.zPlace = true → ClickInside t (arrivingPoint env input)) ∧
        (byte input = 0x0d → Server.isCommand env (arrivingText env input) = true →
          arrivingCommand env input = ascii "dump" → 10000 ≤ t.mapAlloc)
  | .mcConnect _ =>
      (byte input = 0x06 → t.Holds (arrivingPoint env input)) ∧
        (byte input = 0x04 → (arrivingLevel env input t).Proper ∧ PlansInside (arrivingLevel env input t) building)
  | .connecting => True
  | .builder _ => True

instance (env : Env) (t : Tunnel) (building : Locals) (input : Bytes) (l : Locals) :
    Decidable (StaysInMap env t building input l) := by
  unfold StaysInMap
  split <;> infer_instance

section Accesses

variable (env : Env) {t : Tunnel} {input : Bytes}

theorem dumped_in_map {command : Bytes} (h : command = ascii "dump" → 10000 ≤ t.mapAlloc) {j : Int}
    (hj : j ∈ dumped command) : 0 ≤ j ∧ j < t.mapAlloc := by
  unfold dumped at hj
  split_ifs at hj with hdump
  · obtain ⟨n, hn, rfl⟩ := List.mem_map.mp hj
    have hlt : n < 10000 := List.mem_range.mp hn
    have halloc := h hdump
    have hcast : Int.ofNat n = n := rfl
    omega
  · exact absurd hj List.not_mem_nil

/-- **A turn that stays in the map** accesses nothing else. -/
theorem mapAccesses_in_map (ht : t.Roomy) {building : Locals} (hplans : PlansInside t building) {l : Locals}
    (hl : ∀ pc, l = .builder pc → building = l) (hstays : StaysInMap env t building input l) {j : Int}
    (hj : j ∈ mapAccesses env t input l) : 0 ≤ j ∧ j < t.mapAlloc := by
  -- one case for each thread, as `mapAccesses` has them
  cases l with
  | main =>
      have hj' : j ∈ (if byte (input.take 64) = 39 then dumped (cstr ((input.take 64).drop 1)) else []) := hj
      by_cases hquote : byte (input.take 64) = 39
      · rw [if_pos hquote] at hj'
        exact dumped_in_map (hstays hquote) hj'
      · rw [if_neg hquote] at hj'
        exact absurd hj' List.not_mem_nil
  | tunnelServer l =>
      have hj' : j ∈ (if byte input = 0x05 then if t.zPlace then [pointOffset t (arrivingPoint env input)] else []
          else if byte input = 0x0d ∧ Server.isCommand env (arrivingText env input) = true then
            dumped (arrivingCommand env input)
          else []) := hj
      split_ifs at hj' with hclick hz hcommand
      · rw [List.mem_singleton.mp hj']
        exact ht.point (hstays.1 hclick hz).1
      · exact absurd hj' List.not_mem_nil
      · exact dumped_in_map (hstays.2 hcommand.1 hcommand.2) hj'
      · exact absurd hj' List.not_mem_nil
  | mcConnect l =>
      have hj' : j ∈ (if byte input = 0x06 then [pointOffset t (arrivingPoint env input)] else []) := hj
      split_ifs at hj' with hset
      · rw [List.mem_singleton.mp hj']
        exact ht.point (hstays.1 hset)
      · exact absurd hj' List.not_mem_nil
  | connecting => exact absurd hj List.not_mem_nil
  | builder pc =>
      rw [hl pc rfl] at hplans
      exact builder_accesses_in_map ht hplans hj

end Accesses

/-! ## The invariant of a run -/

section Invariant

variable {env : Env} {t : Tunnel} {input : Bytes}

/-- The corners of the cuboid after a click. -/
theorem cuboid_click {p : Point} (h : ClickInside t p) (blocktype : UInt8) :
    ((∀ q ∈ t.cuboid.corners, t.Holds q) → ∀ q ∈ (cuboidPointed p blocktype t).cuboid.corners, t.Holds q) ∧
      ((t.cuboid.start = true → ∀ q ∈ t.cuboid.corners, t.Holds q) →
        (cuboidPointed p blocktype t).cuboid.start = true →
        ∀ q ∈ (cuboidPointed p blocktype t).cuboid.corners, t.Holds q) := by
  obtain ⟨hp, hfirst, -⟩ := h
  have hold : (∀ q ∈ t.cuboid.corners, t.Holds q) → ∀ q ∈ (cuboidFirst p t).cuboid.corners, t.Holds q :=
    fun hcorners => forall_corners hp (hcorners _ (List.mem_cons_of_mem _ List.mem_cons_self))
  unfold cuboidPointed
  split_ifs with hplace h0 h1
  · exact ⟨hold, fun hcorners hstart => hold (hcorners hstart)⟩
  · have hnew : ∀ q ∈ (cuboidSecond p blocktype t).cuboid.corners, t.Holds q := forall_corners (hfirst hplace h1) hp
    exact ⟨fun _ => hnew, fun _ _ => hnew⟩
  · exact ⟨id, id⟩
  · exact ⟨id, id⟩

/-- The corners of the copy after a click, which the cuboid has been asked for first. -/
theorem copy_click {p : Point} (h : ClickInside t p) {s : Tunnel} (hcopy : s.copy = t.copy)
    (hpoints : s.points = 1 → if t.cuboid.place then t.points = 0 else t.points = 1) :
    ((∀ q ∈ t.copy.corners, t.Holds q) → ∀ q ∈ (copyPointed p s).copy.corners, t.Holds q) ∧
      ((t.copy.start = true → ∀ q ∈ t.copy.corners, t.Holds q) → (copyPointed p s).copy.start = true →
        ∀ q ∈ (copyPointed p s).copy.corners, t.Holds q) := by
  obtain ⟨hp, -, hfirst⟩ := h
  rw [← hcopy] at hfirst ⊢
  have hold : (∀ q ∈ s.copy.corners, t.Holds q) → ∀ q ∈ (copyFirst p s).copy.corners, t.Holds q :=
    fun hcorners => forall_corners hp (hcorners _ (List.mem_cons_of_mem _ List.mem_cons_self))
  unfold copyPointed
  split_ifs with hplace h0 h1
  · exact ⟨hold, fun hcorners hstart => hold (hcorners hstart)⟩
  · have hnew : ∀ q ∈ (copySecond p s).copy.corners, t.Holds q := forall_corners (hfirst hplace (hpoints h1)) hp
    exact ⟨fun _ => hnew, fun _ _ => hnew⟩
  · exact ⟨id, id⟩
  · exact ⟨id, id⟩

/-- The cuboid counts the points, too. -/
theorem points_after_cuboid {p : Point} {blocktype : UInt8} (h : (cuboidPointed p blocktype t).points = 1) :
    if t.cuboid.place then t.points = 0 else t.points = 1 := by
  unfold cuboidPointed at h
  split_ifs at h ⊢ with hplace h0 h1
  · exact h0
  · exact absurd h (by simp [cuboidSecond])
  · exact absurd h h1
  · exact h

theorem plansInside_pointed {p : Point} (hclick : ClickInside t p) (blocktype : UInt8) {l : Locals}
    (h : PlansInside t l) : PlansInside (pointed p blocktype t) l := by
  have hlevel := level_pointed p blocktype t
  have hcuboid : (pointed p blocktype t).cuboid = (cuboidPointed p blocktype t).cuboid := pointed_cuboid p blocktype t
  have hcopy : (pastePointed p (cuboidPointed p blocktype t)).copy = t.copy := by
    rw [pastePointed_copy, cuboidPointed_copy]
  -- what the click adds is inside, and what it keeps was inside before
  obtain ⟨hkeep₁, hstart₁⟩ := cuboid_click hclick blocktype
  obtain ⟨hkeep₂, hstart₂⟩ := copy_click hclick hcopy fun hone =>
    points_after_cuboid ((pastePointed_points p _).symm.trans hone)
  obtain ⟨h₁, h₂, h₃⟩ := h
  have hback : ∀ {q : Point}, t.Holds q → (pointed p blocktype t).Holds q := fun hq => (holds_congr hlevel _).mpr hq
  refine ⟨fun hs q hq => hback ?_, fun hs q hq => hback (hstart₂ h₂ hs q hq), ?_⟩
  · rw [hcuboid] at hs hq
    exact hstart₁ h₁ hs q hq
  unfold UnderWayInside at h₃ ⊢
  split
  · exact ⟨fun q hq => hback (hkeep₂ h₃.1 q hq), (inLevel_congr hlevel _).mpr h₃.2⟩
  · refine ⟨fun q hq => hback ?_, (inLevel_congr hlevel _).mpr h₃.2⟩
    rw [hcuboid] at hq
    exact hkeep₁ h₃.1 q hq
  · trivial

/-- The login calls the cuboid off. -/
theorem plansInside_login {t' : Tunnel} (hlevel : t'.level = t.level)
    (hplans : t'.plans = ((false, t.cuboid.corners), t.copy.start, t.copy.corners)) {l : Locals}
    (h : PlansInside t l) : PlansInside t' l := by
  obtain ⟨-, h₂, h₃⟩ := h
  have hquiet : PlansInside { t with cuboid := { t.cuboid with start := false } } l :=
    ⟨fun hs => absurd hs Bool.false_ne_true, h₂, h₃⟩
  exact plansInside_congr (t := { t with cuboid := { t.cuboid with start := false } }) hlevel hplans hquiet

/-- The new level has a byte for each block. -/
theorem roomy_inflated (ht : t.Proper) : (Client.inflated env t).Roomy := by
  refine ⟨⟨ht.sides, ht.depth, ht.volume⟩, ?_⟩
  have hvolume : ((t.lvlx.toNat * t.lvly.toNat * t.lvlz.toNat : Nat) : Int) = t.volume := by
    unfold Tunnel.volume
    push_cast
    rfl
  have hmax := ht.volume
  have hlt : t.lvlx.toNat * t.lvly.toNat * t.lvlz.toNat < 2 ^ 32 := by omega
  show ((Client.uncompressedsize t : Nat) : Int) = t.volume
  unfold Client.uncompressedsize
  rw [Nat.mod_eq_of_lt hlt, hvolume]

/-- **A turn of the other threads** that stays in the map. -/
theorem plansInside_planStep (ht : t.Roomy) {building : Locals} (hplans : PlansInside t building) {l : Locals}
    (hstays : StaysInMap env t building input l) {who : ThreadId} {r : Option Locals} {t' : Tunnel}
    (h : PlanStep env t input who l r t') (hr : r ≠ none) : t'.Roomy ∧ PlansInside t' building := by
  cases h with
  | keep _ hlevel hkept => exact ⟨roomy_congr hlevel ht, plansInside_congr hlevel hkept hplans⟩
  | login _ hlevel hlogin => exact ⟨roomy_congr hlevel ht, plansInside_login hlevel hlogin hplans⟩
  | click _ blocktype hl hid hz =>
      obtain ⟨l', rfl⟩ := hl
      exact ⟨roomy_congr (level_pointed _ _ t) ht, plansInside_pointed (hstays.1 hid hz) blocktype hplans⟩
  | load hload herror =>
      cases l with
      | mcConnect l =>
          obtain ⟨hproper, hroom⟩ := hstays.2 hload.2
          exact ⟨roomy_inflated hproper, hroom⟩
      | _ => exact absurd hload id
  | fail hload herror => exact absurd rfl hr

/-- Only the builder is a builder. -/
def Locals.IsBuilder : Locals → Prop
  | .builder _ => True
  | _ => False

theorem notBuilder_round {who : ThreadId} (hwho : who ≠ .builder) {l l' : Locals} (hl : ¬ l.IsBuilder)
    (h : ((round env who l).run input t).result = some l') : ¬ l'.IsBuilder := by
  have hmap : ∀ {α : Type} {c : Code α} {g : α → Locals}, (∀ a, ¬ (g a).IsBuilder) →
      ((do let a ← c; pure (g a)).run input t).result = some l' → ¬ l'.IsBuilder := by
    intro α c g hg hresult
    rw [run_bind_pure] at hresult
    obtain ⟨a, -, rfl⟩ := Option.map_eq_some_iff.mp hresult
    exact hg a
  have hpure : ((pure l : Code Locals).run input t).result = some l' → ¬ l'.IsBuilder := by
    intro hresult
    obtain rfl := Option.some.inj hresult
    exact hl
  -- every round returns the locals of its own thread
  cases who with
  | main =>
      cases l with
      | main => exact hmap (fun _ => id) h
      | _ => exact hpure h
  | tunnelServer =>
      cases l with
      | tunnelServer l => exact hmap (fun _ => id) h
      | _ => exact hpure h
  | mcConnect =>
      cases l with
      | connecting => exact hmap (fun _ => id) h
      | mcConnect l => exact hmap (fun _ => id) h
      | _ => exact hpure h
  | builder => exact absurd rfl hwho

/-- The invariant: the level has room for its blocks, and for what is to be built. -/
structure InMap (c : Turns ThreadId Tunnel Socket Locals) : Prop where
  roomy : c.state.Roomy
  plans : PlansInside c.state (c.locals .builder)
  builder : ∃ pc, c.locals .builder = .builder pc
  others : ∀ i, i ≠ .builder → ¬ (c.locals i).IsBuilder

/-- A turn of the builder. -/
theorem inMap_builder {c : Turns ThreadId Tunnel Socket Locals} (hc : InMap c)
    (hcond : c.ended = false ∧ (tunnel env).started .builder c.state = true) :
    ((tunnel env).turn c .builder input).ended = true ∨ InMap ((tunnel env).turn c .builder input) := by
  obtain ⟨pc, hpc⟩ := hc.builder
  have hplans := hc.plans
  rw [hpc] at hplans
  obtain ⟨hstate, hnext⟩ := run_builder env c.state input pc
  have hbody : (tunnel env).body .builder (c.locals .builder) =
      (do let pc' ← LavaTunnel.builder env pc; pure (Locals.builder pc')) := by
    rw [hpc]
    rfl
  have hrun := run_bind_pure (LavaTunnel.builder env pc) Locals.builder input c.state
  rw [← hbody] at hrun
  have hresult := congrArg Outcome.result hrun
  have hmoved := congrArg Outcome.state hrun
  -- a crash ends the process; otherwise the builder stands at its next place
  rcases hnext with hnone | hsome
  · rw [hnone] at hresult
    exact Or.inl (turn_none hcond hresult)
  · rw [hsome] at hresult
    rw [turn_some hcond hresult, hmoved, hstate]
    have hupdate : ∀ l', Function.update c.locals .builder l' ThreadId.builder = l' :=
      fun l' => Function.update_self _ _ _
    refine Or.inr ⟨roomy_congr (builderStep env c.state pc).level hc.roomy, ?_, ⟨_, hupdate _⟩, ?_⟩
    · dsimp only
      rw [hupdate]
      exact plansInside_builder hc.roomy.proper.sides hplans
    · intro j hj
      dsimp only
      rw [Function.update_of_ne hj]
      exact hc.others j hj

/-- **A turn** that stays in the map. -/
theorem inMap_turn {c : Turns ThreadId Tunnel Socket Locals} (h : c.ended = true ∨ InMap c) (i : ThreadId)
    (input : Bytes) (hstays : HasTurn env c i → StaysInMap env c.state (c.locals .builder) input (c.locals i)) :
    ((tunnel env).turn c i input).ended = true ∨ InMap ((tunnel env).turn c i input) := by
  by_cases hcond : c.ended = false ∧ (tunnel env).started i c.state = true
  · have hc : InMap c := h.resolve_left (by simp [hcond.1])
    -- the builder moves on in its plan; another thread can only change what is planned
    by_cases hi : i = .builder
    · subst hi
      exact inMap_builder hc hcond
    cases hresult : (((tunnel env).body i (c.locals i)).run input c.state).result with
    | none => exact Or.inl (turn_none hcond hresult)
    | some l' =>
        have hgoes : ((round env i (c.locals i)).run input c.state).result ≠ none :=
          fun hnone => absurd (hresult.symm.trans hnone) (by simp)
        obtain ⟨hroomy, hplans⟩ :=
          plansInside_planStep hc.roomy hc.plans (hstays hcond) (planStep env c.state input hi (c.locals i)) hgoes
        have hbuilder : Function.update c.locals i l' .builder = c.locals .builder :=
          Function.update_of_ne (Ne.symm hi) _ _
        rw [turn_some hcond hresult]
        refine Or.inr ⟨hroomy, ?_, ?_, ?_⟩
        · dsimp only
          rw [hbuilder]
          exact hplans
        · obtain ⟨pc, hpc⟩ := hc.builder
          exact ⟨pc, hbuilder.trans hpc⟩
        · intro j hj
          dsimp only
          by_cases hji : j = i
          · subst hji
            rw [Function.update_self]
            exact notBuilder_round hj (hc.others j hj) hresult
          · rw [Function.update_of_ne hji]
            exact hc.others j hj
  · rw [turn_of_not hcond]
    exact h

end Invariant

/-! ## Runs -/

/-- Before the first level: there is no map, and nothing to be built. -/
def unloaded (t : Tunnel) : Tunnel :=
  { t with
    lvlx := 0
    lvly := 0
    lvlz := 0
    mapAlloc := 0
    cuboid := { t.cuboid with start := false }
    copy := { t.copy with start := false } }

theorem inMap_beginning (t : Tunnel) : InMap (beginning (unloaded t)) where
  roomy := by
    have hvolume : (unloaded t).volume = 0 := by
      unfold Tunnel.volume unloaded
      simp
    have hmax : (unloaded t).volume < 2 ^ 31 := by
      rw [hvolume]
      decide
    exact ⟨⟨⟨Nat.zero_le _, Nat.zero_le _, Nat.zero_le _⟩, Nat.zero_le _, hmax⟩, hvolume.symm⟩
  plans := ⟨fun hs => absurd hs Bool.false_ne_true, fun hs => absurd hs Bool.false_ne_true, trivial⟩
  builder := ⟨.paste, rfl⟩
  others := by
    intro i hi
    cases i with
    | builder => exact absurd rfl hi
    | _ => exact id

/-- The memory that the map has. -/
def allocated (t : Tunnel) : Region := ⟨fun _ => true, fun j => decide (0 ≤ j ∧ j < t.mapAlloc)⟩

/-- The size of the map after a turn. -/
theorem mapAlloc_round (env : Env) (t : Tunnel) (input : Bytes) (who : ThreadId) (l : Locals) :
    ((round env who l).run input t).state.mapAlloc = t.mapAlloc ∧
        (LoadsLevel who input l → Client.ZlibError env (arrivingLevel env input t)) ∨
      LoadsLevel who input l ∧
        ((round env who l).run input t).state.mapAlloc = Client.uncompressedsize (arrivingLevel env input t) := by
  have hsame : ∀ {t' : Tunnel}, t'.level = t.level → t'.mapAlloc = t.mapAlloc :=
    fun hlevel => congrArg (fun level => level.2.2.2) hlevel
  -- the builder changes blocks only; for the others `PlanStep` says what they do to the size
  by_cases hwho : who = .builder
  · subst hwho
    cases l with
    | builder pc =>
        unfold round
        rw [run_bind_pure, (run_builder env t input pc).1]
        exact Or.inl ⟨hsame (builderStep env t pc).level, fun h => absurd h id⟩
    | mcConnect l => exact Or.inl ⟨rfl, fun h => absurd h.1 (by decide)⟩
    | _ => exact Or.inl ⟨rfl, fun h => absurd h id⟩
  · have hstep := planStep env t input hwho l
    generalize ((round env who l).run input t).result = r at hstep
    generalize ((round env who l).run input t).state = t' at hstep ⊢
    cases hstep with
    | keep hload hlevel _ => exact Or.inl ⟨hsame hlevel, fun h => absurd h hload⟩
    | login hload hlevel _ => exact Or.inl ⟨hsame hlevel, fun h => absurd h hload⟩
    | click hload blocktype _ _ _ => exact Or.inl ⟨hsame (level_pointed _ _ t), fun h => absurd h hload⟩
    | load hload _ => exact Or.inr ⟨hload, rfl⟩
    | fail _ herror => exact Or.inl ⟨rfl, fun _ => herror⟩

/-- A level that arrives is all that its turn accesses. -/
theorem mapAccesses_of_loadsLevel {env : Env} {t : Tunnel} {who : ThreadId} {input : Bytes} {l : Locals}
    (h : LoadsLevel who input l) : mapAccesses env t input l = [] := by
  cases l with
  | mcConnect l =>
      have hset : byte input ≠ 0x06 := by
        rw [h.2]
        decide
      exact if_neg hset
  | _ => exact absurd h id

/-- The client logs in, the server sends a level of one block and then sets it. -/
def loadsBlock : List (ThreadId × Bytes) :=
  [(.tunnelServer, 0x00 :: 7 :: List.replicate 129 32), (.mcConnect, []), (.mcConnect, [0x04, 0, 1, 0, 1, 0, 1]),
    (.mcConnect, [0x06, 0, 0, 0, 0, 0, 0, 7])]

end LavaTunnel
