import LavaTunnel.Correctness.Chunk
import LavaTunnel.Scan.Wrap

/-!
# `LavaTunnel.Correctness.Termination` — when the loops of the builder end

The nests of `builder` count in `short`s, and the bound of a cuboid or a copy is an `unsigned short`: from 32767 on
the counter cannot pass it. A step of a nest is a step of the nest with wrapping counters in `Scan.Wrap`, whatever
the bounds are (`nextWrap_place`), and so the library says when the three operations end.
-/

namespace LavaTunnel

open Scan Wire

/-! ## A step of a nest -/

/-- `v++` on a `short`. -/
theorem toInt_add_one (x : Int16) : (x + 1).toInt = bump 32767 x.toInt := by
  have hle := toInt_lt x
  by_cases h : x.toInt < 32767
  · rw [toInt_succ h, bump_of_lt h]
  · -- the largest `short`
    have hmax : x.toInt = 32767 := by omega
    have hx : x = 32767 := Int16.toInt_inj.mp hmax
    subst hx
    decide

/-- A `short` is not above the largest one. -/
theorem toInt_le (x : Int16) : x.toInt ≤ 32767 := Int.lt_add_one_iff.mp (toInt_lt x)

/-- An `unsigned short` that is negative as a `short`. -/
theorem toInt_toInt16_of_le {x : UInt16} (h : 32768 ≤ x.toNat) : x.toInt16.toInt = x.toNat - 65536 := by
  show x.toBitVec.toInt = (x.toBitVec.toNat : Int) - 65536
  have hle : 32768 ≤ x.toBitVec.toNat := h
  rw [BitVec.toInt_eq_toNat_cond, if_neg (by omega)]
  rfl

/-- The box of the bounds, from a first layer on. -/
def Bounds.box (b : Bounds) (vy : Int) : Box := ⟨b.x1.toInt, vy, b.z1.toInt, b.x2, b.y2, b.z2⟩

/-- From one loop condition to the next, `none` behind the outermost loop. -/
def Loops.next (b : Bounds) (l : Loops) : Option Loops := if l.inside b then some (l.enter b) else l.leave

/-- Where the nest stands after `n` conditions. -/
def Loops.walk (b : Bounds) : Nat → Loops → Option Loops
  | 0, l => some l
  | n + 1, l => (l.next b).bind (Loops.walk b n)

section Place

variable (b : Bounds) (vy : Int) (l : Loops)

/-- **A step of the nest** is a step of the nest with wrapping counters. -/
theorem nextWrap_place : (b.box vy).nextWrap 32767 l.place =
    ((l.next b).map Loops.place, if l.inside b = true ∧ l.level = .z then some l.cell else none) := by
  obtain ⟨level, vx, wy, vz⟩ := l
  cases level with
  | y =>
      by_cases h : wy.toInt ≤ b.y2
      · simp [Loops.next, Loops.inside, Loops.enter, Loops.place, Box.nextWrap, Bounds.box, h]
      · simp [Loops.next, Loops.inside, Loops.leave, Loops.place, Box.nextWrap, Bounds.box, h]
  | x =>
      by_cases h : vx.toInt ≤ b.x2
      · simp [Loops.next, Loops.inside, Loops.enter, Loops.place, Box.nextWrap, Bounds.box, h]
      · simp [Loops.next, Loops.inside, Loops.leave, Loops.place, Box.nextWrap, Bounds.box, h, toInt_add_one,
          -Int16.toInt_add]
  | z =>
      by_cases h : vz.toInt ≤ b.z2
      · simp [Loops.next, Loops.inside, Loops.enter, Loops.place, Loops.cell, Box.nextWrap, Bounds.box, h,
          toInt_add_one, -Int16.toInt_add]
      · simp [Loops.next, Loops.inside, Loops.leave, Loops.place, Box.nextWrap, Bounds.box, h, toInt_add_one,
          -Int16.toInt_add]

theorem walk_place (n : Nat) : (b.box vy).walk 32767 n l.place = (l.walk b n).map Loops.place := by
  induction n generalizing l with
  | zero => rfl
  | succ n ih =>
      show ((b.box vy).nextWrap 32767 l.place).1.bind _ = ((l.next b).bind _).map _
      rw [nextWrap_place]
      cases l.next b with
      | none => rfl
      | some l' => exact ih l'

theorem ends_place_iff : (b.box vy).Ends 32767 l.place ↔ ∃ n, l.walk b n = none := by
  unfold Box.Ends
  simp only [walk_place, Option.map_eq_none_iff]

variable {b l}

/-- A nest that has ended has had a last condition. -/
theorem exists_last {n : Nat} (hn : l.walk b n = none) : ∃ m < n, ∃ l', l.walk b m = some l' ∧ l'.next b = none := by
  induction n generalizing l with
  | zero => exact absurd hn (Option.some_ne_none l)
  | succ n ih =>
      cases hl : l.next b with
      | none => exact ⟨0, Nat.succ_pos n, l, rfl, hl⟩
      | some l' =>
          unfold Loops.walk at hn
          rw [hl] at hn
          obtain ⟨m, hlt, l'', hm, hlast⟩ := ih hn
          refine ⟨m + 1, Nat.succ_lt_succ hlt, l'', ?_, hlast⟩
          unfold Loops.walk
          rw [hl]
          exact hm

end Place

/-- **When a nest ends.** -/
theorem walk_ends_iff (b : Bounds) (vy : Int16) :
    (∃ n, Loops.walk b n ⟨.y, b.x1, vy, b.z1⟩ = none) ↔ (b.box vy.toInt).Passes 32767 := by
  rw [← ends_place_iff b vy.toInt]
  exact Box.ends_entry_iff (by decide) (toInt_le _) (toInt_le _) (toInt_le _)

/-! ## Ending -/

/-- After `n` iterations the builder has come to an exit, whatever the others do that keep `view`. -/
def EndsBy {α : Type} (env : Env) (view : Tunnel → α) (exit : Pc → Prop) (n : Nat) (b : Building) : Prop :=
  ∀ fs : List (Tunnel → Tunnel), fs.length = n → (∀ f ∈ fs, Keeps view f) → exit (Building.run env fs b).pc

/-- After finitely many iterations the builder comes to an exit. -/
def EndsAt {α : Type} (env : Env) (view : Tunnel → α) (exit : Pc → Prop) (b : Building) : Prop :=
  ∃ n, EndsBy env view exit n b

/-- The loops of an operation: `at_ l` is where the builder stands in front of the condition `l`, as long as the
    shared state looks like `v` it goes from condition to condition, and behind the last one to an exit. -/
structure Looping {α : Type} (env : Env) (view : Tunnel → α) (v : α) (b : Bounds) (at_ : Loops → Pc → Prop)
    (exit : Pc → Prop) : Prop where
  next : ∀ t l l' pc, view t = v → at_ l pc → l.next b = some l' →
    at_ l' (builderIteration env t pc).next ∧ view ((builderIteration env t pc).update t) = v
  last : ∀ t l pc, view t = v → at_ l pc → l.next b = none → exit (builderIteration env t pc).next
  inside : ∀ l pc, at_ l pc → ¬ exit pc

section Looping

variable {α : Type} {env : Env} {view : Tunnel → α} {v : α} {b : Bounds} {at_ : Loops → Pc → Prop} {exit : Pc → Prop}

theorem endsBy_succ {n : Nat} {pc : Pc} {t : Tunnel} {calls : List BuilderCall} :
    EndsBy env view exit (n + 1) ⟨pc, t, calls⟩ ↔ ∀ f, Keeps view f →
      EndsBy env view exit n (({ pc := pc, state := f t, calls := calls } : Building).next env) := by
  constructor
  · intro h f hf fs hlen hfs
    refine h (f :: fs) (congrArg (· + 1) hlen) fun g hg => ?_
    rcases List.mem_cons.mp hg with rfl | hg
    · exact hf
    · exact hfs g hg
  · intro h fs hlen hfs
    obtain ⟨f, fs, rfl⟩ := List.exists_cons_of_length_eq_add_one hlen
    exact h f (hfs f List.mem_cons_self) fs (Nat.succ.inj hlen) fun g hg => hfs g (List.mem_cons_of_mem f hg)

/-- Where the builder is after some conditions. -/
theorem Looping.run (hl : Looping env view v b at_ exit) {n : Nat} {l l' : Loops} (hwalk : l.walk b n = some l')
    {pc : Pc}
    (hat : at_ l pc) {fs : List (Tunnel → Tunnel)} (hlen : fs.length = n) (hfs : ∀ f ∈ fs, Keeps view f) {t : Tunnel}
    (ht : view t = v) (calls : List BuilderCall) :
    at_ l' (Building.run env fs ⟨pc, t, calls⟩).pc ∧ view (Building.run env fs ⟨pc, t, calls⟩).state = v := by
  induction n generalizing l pc fs t calls with
  | zero =>
      obtain rfl := List.length_eq_zero_iff.mp hlen
      exact ⟨Option.some.inj hwalk ▸ hat, ht⟩
  | succ n ih =>
      obtain ⟨f, fs, rfl⟩ := List.exists_cons_of_length_eq_add_one hlen
      have hft : view (f t) = v := (hfs f List.mem_cons_self t).trans ht
      unfold Loops.walk at hwalk
      cases hnext : l.next b with
      | none =>
          rw [hnext] at hwalk
          exact absurd hwalk.symm (Option.some_ne_none l')
      | some l₁ =>
          rw [hnext] at hwalk
          obtain ⟨hat', hview⟩ := hl.next (f t) l l₁ pc hft hat hnext
          exact ih hwalk hat' (Nat.succ.inj hlen) (fun g hg => hfs g (List.mem_cons_of_mem f hg)) hview _

/-- Loops that end do so after a number of iterations that only the bounds decide. -/
theorem Looping.endsBy (hl : Looping env view v b at_ exit) {l : Loops} (h : ∃ n, l.walk b n = none) :
    ∃ n, ∀ pc t calls, at_ l pc → view t = v → EndsBy env view exit n ⟨pc, t, calls⟩ := by
  obtain ⟨_, h⟩ := h
  obtain ⟨n, -, l', hwalk, hlast⟩ := exists_last h
  refine ⟨n + 1, fun pc t calls hat ht fs hlen hfs => ?_⟩
  obtain ⟨gs, g, rfl⟩ := List.eq_nil_or_concat' fs |>.resolve_left (by rintro rfl; exact absurd hlen (by simp))
  have hgs : gs.length = n := by simpa using hlen
  obtain ⟨hat', hview⟩ := hl.run hwalk hat hgs (fun f hf => hfs f (List.mem_append_left [g] hf)) ht calls
  rw [run_append]
  exact hl.last _ l' _ ((hfs g (by simp) _).trans hview) hat' hlast

/-- **The loops end just if the nest does.** -/
theorem Looping.endsAt_iff (hl : Looping env view v b at_ exit) {l : Loops} {pc : Pc} {t : Tunnel}
    {calls : List BuilderCall} (hat : at_ l pc) (ht : view t = v) :
    EndsAt env view exit ⟨pc, t, calls⟩ ↔ ∃ n, l.walk b n = none := by
  constructor
  · rintro ⟨n, hn⟩
    refine ⟨n, ?_⟩
    by_contra hwalk
    obtain ⟨l', hl'⟩ := Option.ne_none_iff_exists'.mp hwalk
    -- left alone, the builder is still in the loops
    have hrun := (hl.run hl' hat (List.length_replicate (n := n) (a := id))
      (fun f hf => List.eq_of_mem_replicate hf ▸ keeps_id view) ht calls).1
    exact hl.inside l' _ hrun (hn _ List.length_replicate fun f hf => List.eq_of_mem_replicate hf ▸ keeps_id view)
  · intro h
    obtain ⟨n, hn⟩ := hl.endsBy h
    exact ⟨n, hn pc t calls hat ht⟩

/-- The iteration in front of the loops. -/
theorem Looping.endsAt_start_iff (hl : Looping env view v b at_ exit) {l : Loops} {pc : Pc} {t : Tunnel}
    {calls : List BuilderCall} (hpc : ¬ exit pc) (hstart : ∀ f, Keeps view f →
      at_ l (builderIteration env (f t) pc).next ∧ view ((builderIteration env (f t) pc).update (f t)) = v) :
    EndsAt env view exit ⟨pc, t, calls⟩ ↔ ∃ n, l.walk b n = none := by
  constructor
  · rintro ⟨n, hn⟩
    cases n with
    | zero => exact absurd (hn [] rfl (fun f hf => absurd hf List.not_mem_nil)) hpc
    | succ n =>
        obtain ⟨hat, hview⟩ := hstart id (keeps_id view)
        exact (hl.endsAt_iff hat hview).mp ⟨n, endsBy_succ.mp hn id (keeps_id view)⟩
  · intro h
    obtain ⟨n, hn⟩ := hl.endsBy h
    refine ⟨n + 1, endsBy_succ.mpr fun f hf => ?_⟩
    obtain ⟨hat, hview⟩ := hstart f hf
    exact hn _ _ _ hat hview

end Looping

/-! ## The three operations -/

/-- A point whose coordinates a `short` can pass. -/
def Point.Short (p : Point) : Prop := p.1.toNat < 32767 ∧ p.2.1.toNat < 32767 ∧ p.2.2.toNat < 32767

instance (p : Point) : Decidable p.Short := inferInstanceAs (Decidable (_ ∧ _ ∧ _))

/-- Both corners are short. -/
abbrev ShortCorners (ps : List Point) : Prop := ∀ p ∈ ps, p.Short

instance (ps : List Point) : Decidable (ShortCorners ps) := List.decidableBAll Point.Short ps

/-- The cuboid comes to its end. -/
def CuboidEnds (env : Env) (t : Tunnel) : Prop :=
  EndsAt env (fun t => t.cuboid) (· = .paste) ⟨.cuboid, t, []⟩

/-- In front of the loops of the copy. -/
def copyEntered (t : Tunnel) (copyBuf : Bytes) : Building :=
  { pc := .copyLoop copyBuf ⟨.y, (copySorted t.copy).x1.toInt16, (copySorted t.copy).y1.toInt16,
      (copySorted t.copy).z1.toInt16⟩
    state := (copyStart t).update t }

/-- The copy comes to the end of its loops. -/
def CopyEnds (env : Env) (t : Tunnel) : Prop :=
  ∀ copyBuf, EndsAt env (fun t => t.copy) (fun pc => ∃ copyBuf', pc = .copyWrite copyBuf') (copyEntered t copyBuf)

/-- The paste comes to its end. -/
def PasteEnds (env : Env) (t : Tunnel) : Prop := EndsAt env pasteView (· = .copy) ⟨.paste, t, []⟩

/-- The bounds of a box with its corners in order end just if both corners are short. -/
theorem ordered_ends_iff (x1 y1 z1 x2 y2 z2 : UInt16) :
    (∃ n, Loops.walk ⟨(ordered x1 x2).1.toInt16, (ordered z1 z2).1.toInt16, (ordered x1 x2).2.toNat,
        (ordered y1 y2).2.toNat, (ordered z1 z2).2.toNat⟩ n
      ⟨.y, (ordered x1 x2).1.toInt16, (ordered y1 y2).1.toInt16, (ordered z1 z2).1.toInt16⟩ = none) ↔
    ShortCorners [(x1, y1, z1), (x2, y2, z2)] := by
  -- read as a `short`, the near corner is not behind the far one
  have haxis : ∀ a b : UInt16, (ordered a b).1.toInt16.toInt ≤ (ordered a b).2.toNat := by
    intro a b
    have hfst := ordered_fst a b
    have hsnd := ordered_snd a b
    by_cases h : (ordered a b).1.toNat < 32768
    · rw [toInt_toInt16 h]
      omega
    · have hneg : (ordered a b).1.toInt16.toInt = (ordered a b).1.toNat - 65536 := toInt_toInt16_of_le (not_lt.mp h)
      omega
  have hfar : ∀ a b : UInt16, ((ordered a b).2.toNat : Int) < 32767 ↔ a.toNat < 32767 ∧ b.toNat < 32767 := by
    intro a b
    have hsnd := ordered_snd a b
    omega
  rw [walk_ends_iff ⟨(ordered x1 x2).1.toInt16, (ordered z1 z2).1.toInt16, (ordered x1 x2).2.toNat,
    (ordered y1 y2).2.toNat, (ordered z1 z2).2.toNat⟩]
  unfold Box.Passes Bounds.box
  simp only [haxis, hfar, forall_const, ShortCorners, List.forall_mem_cons, List.not_mem_nil, false_implies,
    and_true, Point.Short]
  constructor
  · rintro ⟨⟨hy1, hy2⟩, ⟨hx1, hx2⟩, hz1, hz2⟩
    exact ⟨⟨hx1, hy1, hz1⟩, hx2, hy2, hz2⟩
  · rintro ⟨⟨hx1, hy1, hz1⟩, hx2, hy2, hz2⟩
    exact ⟨⟨hy1, hy2⟩, ⟨hx1, hx2⟩, hz1, hz2⟩

/-! ### The cuboid -/

theorem cuboidLooping (env : Env) {t₀ : Tunnel} (hhalt : t₀.cuboid.halt = false) :
    Looping env (fun t => t.cuboid) t₀.cuboid (cuboidBounds t₀) (fun l pc => ∃ hidden, pc = .cuboidLoop hidden l)
      (· = .paste) where
  next := by
    rintro t l l' pc ht ⟨hidden, rfl⟩ hnext
    have hbounds : cuboidBounds t = cuboidBounds t₀ := by simp only [cuboidBounds, ht]
    have ht' : t.cuboid.halt = false := (congrArg Cuboid.halt ht).trans hhalt
    unfold Loops.next at hnext
    simp only [builderIteration, cuboidIteration, hbounds, ht']
    cases hin : l.inside (cuboidBounds t₀) with
    | true =>
        rw [hin, if_pos rfl, Option.some.injEq] at hnext
        exact ⟨⟨hidden, congrArg (Pc.cuboidLoop hidden) hnext⟩, ht⟩
    | false =>
        rw [hin, if_neg Bool.false_ne_true] at hnext
        simp only [cuboidLeave, hnext]
        exact ⟨⟨hidden, rfl⟩, ht⟩
  last := by
    rintro t l pc ht ⟨hidden, rfl⟩ hnext
    have hbounds : cuboidBounds t = cuboidBounds t₀ := by simp only [cuboidBounds, ht]
    unfold Loops.next at hnext
    simp only [builderIteration, cuboidIteration, hbounds]
    cases hin : l.inside (cuboidBounds t₀) with
    | true =>
        rw [hin, if_pos rfl] at hnext
        exact absurd hnext (Option.some_ne_none _)
    | false =>
        rw [hin, if_neg Bool.false_ne_true] at hnext
        simp only [cuboidLeave, hnext]
        rfl
  inside := by
    rintro l pc ⟨hidden, rfl⟩
    exact Pc.noConfusion

/-- **A cuboid that is not halted** ends just if its corners are short. -/
theorem cuboidEnds_iff (env : Env) {t : Tunnel} (hstart : t.cuboid.start = true) (htype : t.cuboid.type = 0)
    (hhalt : t.cuboid.halt = false) : CuboidEnds env t ↔ ShortCorners t.cuboid.corners := by
  let t₀ : Tunnel := { t with cuboid := cuboidSorted t.cuboid }
  have hhalt₀ : t₀.cuboid.halt = false := hhalt
  have hlooping := cuboidLooping env hhalt₀
  refine (hlooping.endsAt_start_iff Pc.noConfusion (l := ⟨.y, (cuboidSorted t.cuboid).x1.toInt16,
    (cuboidSorted t.cuboid).y1.toInt16, (cuboidSorted t.cuboid).z1.toInt16⟩) fun f hf => ?_).trans
    (ordered_ends_iff _ _ _ _ _ _)
  -- the first iteration puts the corners in order
  have hft : (f t).cuboid = t.cuboid := hf t
  rw [iteration_cuboid_start env (by rw [hft, hstart]) (by rw [hft, htype])]
  simp only [cuboidStart, hft]
  exact ⟨⟨_, rfl⟩, rfl⟩

/-! ### The copy -/

theorem copyLooping (env : Env) (t₀ : Tunnel) :
    Looping env (fun t => t.copy) t₀.copy (copyBounds t₀) (fun l pc => ∃ copyBuf, pc = .copyLoop copyBuf l)
      (fun pc => ∃ copyBuf, pc = .copyWrite copyBuf) where
  next := by
    rintro t l l' pc ht ⟨copyBuf, rfl⟩ hnext
    have hbounds : copyBounds t = copyBounds t₀ := by simp only [copyBounds, ht]
    unfold Loops.next at hnext
    simp only [builderIteration, copyIteration, hbounds]
    cases hin : l.inside (copyBounds t₀) with
    | true =>
        rw [hin, if_pos rfl, Option.some.injEq] at hnext
        exact ⟨⟨_, congrArg (Pc.copyLoop _) hnext⟩, ht⟩
    | false =>
        rw [hin, if_neg Bool.false_ne_true] at hnext
        simp only [hnext]
        exact ⟨⟨_, rfl⟩, ht⟩
  last := by
    rintro t l pc ht ⟨copyBuf, rfl⟩ hnext
    have hbounds : copyBounds t = copyBounds t₀ := by simp only [copyBounds, ht]
    unfold Loops.next at hnext
    simp only [builderIteration, copyIteration, hbounds]
    cases hin : l.inside (copyBounds t₀) with
    | true =>
        rw [hin, if_pos rfl] at hnext
        exact absurd hnext (Option.some_ne_none _)
    | false =>
        rw [hin, if_neg Bool.false_ne_true] at hnext
        simp only [hnext]
        exact ⟨_, rfl⟩
  inside := by
    rintro l pc ⟨copyBuf, rfl⟩ ⟨copyBuf', h⟩
    exact Pc.noConfusion h

/-- **A copy** comes to the end of its loops just if its corners are short. -/
theorem copyEnds_iff (env : Env) (t : Tunnel) : CopyEnds env t ↔ ShortCorners t.copy.corners := by
  have hends : ∀ copyBuf, EndsAt env (fun t => t.copy) (fun pc => ∃ copyBuf', pc = .copyWrite copyBuf')
      (copyEntered t copyBuf) ↔ ShortCorners t.copy.corners := fun copyBuf =>
    ((copyLooping env ((copyStart t).update t)).endsAt_iff ⟨copyBuf, rfl⟩ rfl).trans (ordered_ends_iff _ _ _ _ _ _)
  exact ⟨fun h => (hends []).mp (h []), fun h copyBuf => (hends copyBuf).mpr h⟩

/-- Unless its size is negative the copy gets in front of its loops. -/
theorem copyStart_entered (env : Env) {t : Tunnel} (hstart : t.copy.start = true)
    (hsize : ¬ copySize (copySorted t.copy) < 0) :
    (builderIteration env t .copy).next = (copyEntered t (copyHeader (copySorted t.copy))).pc ∧
      (builderIteration env t .copy).update t = (copyEntered t (copyHeader (copySorted t.copy))).state := by
  rw [iteration_copy_start env hstart]
  exact ⟨if_neg hsize, rfl⟩

/-! ### The paste -/

/-- A value as a `short`. -/
def wrap16 (n : Int) : Int := n.bmod 65536

/-- Where a loop of the paste begins and ends: between the point and the far corner, as `short`s, the point last if the
    far corner is below it. -/
def pasteAxis (near : UInt16) (extent : Int16) : Int × Int :=
  let far := wrap16 (near.toNat + extent.toInt - 1)
  if far < near.toNat then (far, wrap16 near.toNat) else (wrap16 near.toNat, far)

/-- The box of a paste as its loops count it, whatever the extents. -/
def pasteAxes (p : Paste) (pastebuf : Bytes) : Box where
  x1 := (pasteAxis p.x (shortAt pastebuf 0)).1
  y1 := (pasteAxis p.y (shortAt pastebuf 2)).1
  z1 := (pasteAxis p.z (shortAt pastebuf 4)).1
  x2 := (pasteAxis p.x (shortAt pastebuf 0)).2
  y2 := (pasteAxis p.y (shortAt pastebuf 2)).2
  z2 := (pasteAxis p.z (shortAt pastebuf 4)).2

theorem toInt_toShort_wrap (n : Int) : (toShort n).toInt = wrap16 n := Int16.toInt_ofInt

theorem toInt_toInt16_wrap (x : UInt16) : x.toInt16.toInt = wrap16 x.toNat := by
  rw [← toInt_toShort_wrap]
  refine congrArg Int16.toInt (Int16.toInt_inj.mp ?_)
  by_cases h : x.toNat < 32768
  · rw [toInt_toInt16 h, toInt_toShort (by omega) (by omega)]
  · have hlt : x.toNat < 65536 := x.toNat_lt
    rw [toInt_toInt16_of_le (not_lt.mp h), toInt_toShort_wrap, wrap16, Int.bmod_def]
    split <;> omega

/-- The code's corners are those. -/
theorem pasteCorners_axis (near : UInt16) (extent : Int16) :
    ((pasteCorners near extent).1.toInt16.toInt, (pasteCorners near extent).2.toInt) = pasteAxis near extent := by
  unfold pasteCorners pasteAxis
  dsimp only
  rw [toInt_toShort_wrap]
  split
  · rw [← toInt_toShort_wrap (near.toNat + extent.toInt - 1), ← toInt_toInt16_wrap]
    rfl
  · rw [← toInt_toShort_wrap (near.toNat + extent.toInt - 1), ← toInt_toInt16_wrap]

/-- In front of the loops of the paste. -/
def pasteEntered (env : Env) (t : Tunnel) (chunk : Bytes) : Pasting × Loops :=
  let pastebuf := pasteBuffer env chunk
  let cx := pasteCorners t.paste.x (shortAt pastebuf 0)
  let cy := pasteCorners t.paste.y (shortAt pastebuf 2)
  let cz := pasteCorners t.paste.z (shortAt pastebuf 4)
  (⟨pastebuf, 6, cx.2, cy.2, cz.2, t.hide⟩, ⟨.y, cx.1.toInt16, cy.1.toInt16, cz.1.toInt16⟩)

/-- The state in front of the loops of the paste. -/
def pasteState (env : Env) (t : Tunnel) (chunk : Bytes) : Tunnel :=
  { t with
    hide := true
    paste := { t.paste with
      x := (pasteCorners t.paste.x (shortAt (pasteBuffer env chunk) 0)).1
      y := (pasteCorners t.paste.y (shortAt (pasteBuffer env chunk) 2)).1
      z := (pasteCorners t.paste.z (shortAt (pasteBuffer env chunk) 4)).1 } }

theorem pasteStart_entered (env : Env) {t : Tunnel} {chunk : Bytes} (hstart : t.paste.start = true)
    (hfile : t.files (cstr t.paste.chunkName) = some chunk) :
    (builderIteration env t .paste).next = .pasteLoop (pasteEntered env t chunk).1 (pasteEntered env t chunk).2 ∧
      (builderIteration env t .paste).update t = pasteState env t chunk := by
  rw [iteration_paste_start env hstart]
  unfold pasteStart
  rw [hfile]
  exact ⟨rfl, rfl⟩

theorem pasteLooping (env : Env) (p : Pasting) {t₀ : Tunnel} (hhalt : t₀.paste.halt = false) :
    Looping env pasteView (pasteView t₀) (pasteBounds t₀ p)
      (fun l pc => ∃ k hidden, pc = .pasteLoop { p with bufLoop := k, hidden := hidden } l) (· = .copy) where
  next := by
    rintro t l l' pc ht ⟨k, hidden, rfl⟩ hnext
    obtain ⟨hpaste, hbounds⟩ := paste_congr (p := { p with hidden := hidden }) (k := k) ht
    have hbounds : pasteBounds t { p with bufLoop := k, hidden := hidden } = pasteBounds t₀ p := hbounds
    have ht' : t.paste.halt = false := (congrArg Paste.halt hpaste).trans hhalt
    unfold Loops.next at hnext
    simp only [builderIteration, pasteIteration, hbounds, ht']
    cases hin : l.inside (pasteBounds t₀ p) with
    | true =>
        rw [hin, if_pos rfl, Option.some.injEq] at hnext
        by_cases hz : l.level = .z
        · simp only [hz, hnext]
          exact ⟨⟨k + 1, hidden, rfl⟩, ht⟩
        · simp only [hz, hnext]
          exact ⟨⟨k, hidden, rfl⟩, ht⟩
    | false =>
        rw [hin, if_neg Bool.false_ne_true] at hnext
        simp only [pasteLeave, hnext]
        exact ⟨⟨k, hidden, rfl⟩, ht⟩
  last := by
    rintro t l pc ht ⟨k, hidden, rfl⟩ hnext
    obtain ⟨-, hbounds⟩ := paste_congr (p := { p with hidden := hidden }) (k := k) ht
    have hbounds : pasteBounds t { p with bufLoop := k, hidden := hidden } = pasteBounds t₀ p := hbounds
    unfold Loops.next at hnext
    simp only [builderIteration, pasteIteration, hbounds]
    cases hin : l.inside (pasteBounds t₀ p) with
    | true =>
        rw [hin, if_pos rfl] at hnext
        exact absurd hnext (Option.some_ne_none _)
    | false =>
        rw [hin, if_neg Bool.false_ne_true] at hnext
        simp only [pasteLeave, hnext]
        rfl
  inside := by
    rintro l pc ⟨k, hidden, rfl⟩
    exact Pc.noConfusion

/-- The bounds of the paste are those of its axes. -/
theorem pasteBounds_axes (env : Env) (t : Tunnel) (chunk : Bytes) :
    (pasteBounds (pasteState env t chunk) (pasteEntered env t chunk).1).box (pasteEntered env t chunk).2.vy.toInt =
      pasteAxes t.paste (pasteBuffer env chunk) := by
  simp only [pasteAxes, ← pasteCorners_axis, pasteBounds, pasteState, pasteEntered, Bounds.box]

/-- **A paste that is not halted** ends just if no loop it gets into has the largest `short` as its end. -/
theorem pasteEnds_iff (env : Env) {t : Tunnel} {chunk : Bytes} (hstart : t.paste.start = true)
    (hhalt : t.paste.halt = false) (hfile : t.files (cstr t.paste.chunkName) = some chunk) :
    PasteEnds env t ↔ (pasteAxes t.paste (pasteBuffer env chunk)).Passes 32767 := by
  have hhalt₀ : (pasteState env t chunk).paste.halt = false := hhalt
  have hlooping := pasteLooping env (pasteEntered env t chunk).1 hhalt₀
  refine (hlooping.endsAt_start_iff Pc.noConfusion (l := (pasteEntered env t chunk).2) fun f hf => ?_).trans ?_
  · have hpaste : (f t).paste = t.paste := congrArg Prod.fst (hf t)
    have hfiles : (f t).files = t.files := congrArg Prod.snd (hf t)
    have hfound : (f t).files (cstr (f t).paste.chunkName) = some chunk := by rw [hfiles, hpaste, hfile]
    obtain ⟨hnext, hstate⟩ := pasteStart_entered env (by rw [hpaste, hstart]) hfound
    rw [hnext, hstate]
    simp only [pasteEntered, pasteState, pasteView, hpaste, hfiles]
    exact ⟨⟨6, (f t).hide, rfl⟩, trivial⟩
  · rw [← pasteBounds_axes env t chunk, ← walk_ends_iff]
    rfl

/-! ## The result -/

/-- The operations that have been started, and are not halted, end. -/
structure BuildsEnd (env : Env) (t : Tunnel) : Prop where
  cuboid : t.cuboid.start = true → t.cuboid.type = 0 → t.cuboid.halt = false → CuboidEnds env t
  copy : CopyEnds env t
  paste : ∀ chunk, t.paste.start = true → t.paste.halt = false → t.files (cstr t.paste.chunkName) = some chunk →
    PasteEnds env t

/-- **The loops of the builder end** just if the corners of a cuboid and of a copy are short, and no loop that a paste
    gets into has the largest `short` as its end. -/
theorem build_loops_end_iff (env : Env) (t : Tunnel) :
    (t.cuboid.start = true → t.cuboid.type = 0 → t.cuboid.halt = false →
        (CuboidEnds env t ↔ ShortCorners t.cuboid.corners)) ∧
      (CopyEnds env t ↔ ShortCorners t.copy.corners) ∧
      ∀ chunk, t.paste.start = true → t.paste.halt = false → t.files (cstr t.paste.chunkName) = some chunk →
        (PasteEnds env t ↔ (pasteAxes t.paste (pasteBuffer env chunk)).Passes 32767) :=
  ⟨cuboidEnds_iff env, copyEnds_iff env t, fun _ => pasteEnds_iff env⟩

/-- A cuboid of one block, a copy of eight and a paste of one. -/
theorem build_loops_end_small :
    let t : Tunnel := {
      cuboid := { x1 := 5, y1 := 5, z1 := 5, x2 := 5, y2 := 5, z2 := 5, start := true }
      copy := { x1 := 2, y1 := 2, z1 := 2, x2 := 1, y2 := 1, z2 := 1, start := true }
      paste := { x := 7, y := 7, z := 7, start := true }
      files := fun _ => some [1, 0, 1, 0, 1, 0, 3] }
    BuildsEnd {} t := by
  intro t
  obtain ⟨hcuboid, hcopy, hpaste⟩ := build_loops_end_iff {} t
  refine ⟨fun _ _ _ => (hcuboid rfl rfl rfl).mpr (by decide), hcopy.mpr (by decide), fun chunk _ _ hfile => ?_⟩
  obtain rfl : [1, 0, 1, 0, 1, 0, 3] = chunk := Option.some.inj hfile
  exact (hpaste _ rfl rfl rfl).mpr (by decide +kernel)

/-- A cuboid with a corner at 32767 does not end. -/
theorem cuboid_endless : ¬ ∀ (env : Env) (t : Tunnel), BuildsEnd env t := by
  intro hall
  have hends := (hall {} { cuboid := { x2 := 32767, start := true } }).cuboid rfl rfl rfl
  exact absurd ((cuboidEnds_iff {} rfl rfl rfl).mp hends) (by decide)

end LavaTunnel
