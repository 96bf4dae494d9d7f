import LavaTunnel.Build

/-!
# `LavaTunnel.Correctness.Nest` — the loops of the builder count through a box

The nests of `builder` count in `short`s. Where the far corner is below the largest `short` they do not
wrap, and a step of the nest is a step of `Scan.Box` (`next_enter`, `next_leave`). What the library knows
about boxes then holds of the code: what remains to be visited, the number of conditions left, and an
induction over the run of a nest (`Loops.nest_induction`) that every operation uses.
-/

namespace LavaTunnel

open Scan Wire

/-- Where the nest stands, on integers. -/
def Loops.place (l : Loops) : Place := ⟨l.level, l.vx.toInt, l.vy.toInt, l.vz.toInt⟩

/-- The cell the counters point to. -/
def Loops.cell (l : Loops) : Cell := ⟨l.vx.toInt, l.vy.toInt, l.vz.toInt⟩

/-- The bounds are those of a box, and no counter wraps on the way out of it. -/
structure Bounds.Describes (b : Bounds) (box : Box) : Prop where
  x1 : b.x1.toInt = box.x1
  z1 : b.z1.toInt = box.z1
  x2 : b.x2 = box.x2
  y2 : b.y2 = box.y2
  z2 : b.z2 = box.z2
  short : box.x2 < 32767 ∧ box.y2 < 32767 ∧ box.z2 < 32767

variable {b : Bounds} {box : Box} {l l' : Loops}

/-! ## A step of the nest is a step of the box -/

theorem next_enter (hb : b.Describes box) (h : l.inside b = true) :
    box.next l.place = (some (l.enter b).place, if l.level = .z then some l.cell else none) := by
  obtain ⟨hx1, hz1, hx2, hy2, hz2, -, -, hshort⟩ := hb
  obtain ⟨level, vx, vy, vz⟩ := l
  cases level with
  | y =>
      have hle : vy.toInt ≤ box.y2 := by simpa [Loops.inside, hy2] using h
      simp [Loops.place, Loops.enter, Box.next, hle, hx1]
  | x =>
      have hle : vx.toInt ≤ box.x2 := by simpa [Loops.inside, hx2] using h
      simp [Loops.place, Loops.enter, Box.next, hle, hz1]
  | z =>
      have hle : vz.toInt ≤ box.z2 := by simpa [Loops.inside, hz2] using h
      simp [Loops.place, Loops.enter, Loops.cell, Box.next, hle, toInt_succ (x := vz) (by omega)]

theorem next_leave (hb : b.Describes box) (hw : box.Within l.place) (h : l.inside b = false) :
    box.next l.place = (l.leave.map Loops.place, none) := by
  obtain ⟨hx1, hz1, hx2, hy2, hz2, hsx, hsy, -⟩ := hb
  obtain ⟨level, vx, vy, vz⟩ := l
  cases level with
  | y =>
      have hgt : ¬ vy.toInt ≤ box.y2 := by simpa [Loops.inside, hy2] using h
      simp [Loops.place, Loops.leave, Box.next, hgt]
  | x =>
      have hgt : ¬ vx.toInt ≤ box.x2 := by simpa [Loops.inside, hx2] using h
      obtain ⟨-, hvy, -⟩ : box.y1 ≤ vy.toInt ∧ vy.toInt ≤ box.y2 ∧ box.x1 ≤ vx.toInt := hw
      simp [Loops.place, Loops.leave, Box.next, hgt, toInt_succ (x := vy) (by omega)]
  | z =>
      have hgt : ¬ vz.toInt ≤ box.z2 := by simpa [Loops.inside, hz2] using h
      obtain ⟨-, -, -, hvx, -⟩ : box.y1 ≤ vy.toInt ∧ vy.toInt ≤ box.y2 ∧ box.x1 ≤ vx.toInt ∧
        vx.toInt ≤ box.x2 ∧ box.z1 ≤ vz.toInt := hw
      simp [Loops.place, Loops.leave, Box.next, hgt, toInt_succ (x := vx) (by omega)]

theorem within_enter (hb : b.Describes box) (hw : box.Within l.place) (h : l.inside b = true) :
    box.Within (l.enter b).place :=
  Box.within_next hw (by rw [next_enter hb h])

theorem within_leave (hb : b.Describes box) (hw : box.Within l.place) (h : l.inside b = false)
    (hl : l.leave = some l') : box.Within l'.place :=
  Box.within_next hw (by rw [next_leave hb hw h, hl]; rfl)

/-! ## What remains, and how long it takes -/

theorem remaining_enter (hb : b.Describes box) (h : l.inside b = true) :
    box.remaining l.place =
      (if l.level = .z then [l.cell] else []) ++ box.remaining (l.enter b).place := by
  rw [Box.remaining_next, next_enter hb h]
  split <;> rfl

theorem remaining_leave (hb : b.Describes box) (hw : box.Within l.place) (h : l.inside b = false)
    (hl : l.leave = some l') : box.remaining l.place = box.remaining l'.place := by
  rw [Box.remaining_next, next_leave hb hw h, hl]
  rfl

theorem remaining_done (hb : b.Describes box) (hw : box.Within l.place) (h : l.inside b = false)
    (hl : l.leave = none) : box.remaining l.place = [] := by
  rw [Box.remaining_next, next_leave hb hw h, hl]
  rfl

theorem stepsLeft_enter (hb : b.Describes box) (h : l.inside b = true) :
    box.stepsLeft l.place = box.stepsLeft (l.enter b).place + 1 := by
  rw [Box.stepsLeft_next, next_enter hb h]
  rfl

theorem stepsLeft_leave (hb : b.Describes box) (hw : box.Within l.place) (h : l.inside b = false)
    (hl : l.leave = some l') : box.stepsLeft l.place = box.stepsLeft l'.place + 1 := by
  rw [Box.stepsLeft_next, next_leave hb hw h, hl]
  rfl

theorem stepsLeft_done (hb : b.Describes box) (hw : box.Within l.place) (h : l.inside b = false)
    (hl : l.leave = none) : box.stepsLeft l.place = 1 := by
  rw [Box.stepsLeft_next, next_leave hb hw h, hl]
  rfl

/-- **Induction over the run of a nest**, from its end backwards. -/
theorem Loops.nest_induction (hb : b.Describes box) {motive : Loops → Prop}
    (enter : ∀ l, box.Within l.place → l.inside b = true → motive (l.enter b) → motive l)
    (leave : ∀ l l', box.Within l.place → l.inside b = false → l.leave = some l' → motive l' → motive l)
    (done : ∀ l, box.Within l.place → l.inside b = false → l.leave = none → motive l)
    (l : Loops) (hw : box.Within l.place) : motive l := by
  generalize hn : box.stepsLeft l.place = n
  -- on the steps that are left; there is always the one in which a condition is evaluated
  induction n generalizing l with
  | zero =>
      rw [Box.stepsLeft_next] at hn
      omega
  | succ n ih =>
      cases h : l.inside b with
      | true =>
          have hsteps := stepsLeft_enter hb h
          exact enter l hw h (ih _ (within_enter hb hw h) (by omega))
      | false =>
          cases hl : l.leave with
          | none => exact done l hw h hl
          | some l' =>
              have hsteps := stepsLeft_leave hb hw h hl
              exact leave l l' hw h hl (ih _ (within_leave hb hw h hl) (by omega))

/-! ## Interference -/

/-- The other threads leave `g` of the shared state alone. -/
def Keeps {α : Type} (g : Tunnel → α) (f : Tunnel → Tunnel) : Prop := ∀ t, g (f t) = g t

theorem keeps_id {α : Type} (g : Tunnel → α) : Keeps g id := fun _ => rfl

/-- The first iteration of a run. -/
theorem run_cons (env : Env) (f : Tunnel → Tunnel) (fs : List (Tunnel → Tunnel)) (pc : Pc) (t : Tunnel)
    (calls : List BuilderCall) :
    Building.run env (f :: fs) ⟨pc, t, calls⟩ =
      let it := builderIteration env (f t) pc
      Building.run env fs ⟨it.next, it.update (f t), calls ++ it.calls⟩ := rfl

theorem run_append (env : Env) (fs gs : List (Tunnel → Tunnel)) (b : Building) :
    Building.run env (fs ++ gs) b = Building.run env gs (Building.run env fs b) := by
  induction fs generalizing b with
  | nil => rfl
  | cons f fs ih => exact ih _

/-- A crash is the end. -/
theorem run_crashed (env : Env) (fs : List (Tunnel → Tunnel)) (t : Tunnel) (calls : List BuilderCall) :
    (Building.run env fs ⟨.crashed, t, calls⟩).pc = .crashed := by
  induction fs generalizing t calls with
  | nil => rfl
  | cons f fs ih => exact ih _ _

/-! ## A whole nest -/

/-- Visit some cells in turn, and collect the calls. -/
def visits {S : Type} (visit : S → Cell → S × List BuilderCall) : S → List Cell → S × List BuilderCall
  | s, [] => (s, [])
  | s, c :: cs => ((visits visit (visit s c).1 cs).1, (visit s c).2 ++ (visits visit (visit s c).1 cs).2)

/-- An operation whose nest is `pc`: as long as the shared state looks like `v` it counts through the bounds, `visit`s
    a cell in the innermost body, and goes on with `last` at the end. -/
structure Nest {α S : Type} (env : Env) (view : Tunnel → α) (v : α) (b : Bounds) (pc : S → Loops → Pc)
    (visit : S → Cell → S × List BuilderCall) (last : S → Iteration) : Prop where
  enter : ∀ t s l, view t = v → l.inside b = true → builderIteration env t (pc s l) =
    { next := pc (if l.level = .z then (visit s l.cell).1 else s) (l.enter b)
      calls := if l.level = .z then (visit s l.cell).2 else [] }
  leave : ∀ t s l l', view t = v → l.inside b = false → l.leave = some l' →
    builderIteration env t (pc s l) = { next := pc s l' }
  done : ∀ t s l, view t = v → l.inside b = false → l.leave = none → builderIteration env t (pc s l) = last s

/-- **From any place in the nest** the operation visits the cells that remain, and ends. -/
theorem Nest.run {α S : Type} {env : Env} {view : Tunnel → α} {v : α} {pc : S → Loops → Pc}
    {visit : S → Cell → S × List BuilderCall} {last : S → Iteration} (hn : Nest env view v b pc visit last)
    (hb : b.Describes box) (l : Loops) (hw : box.Within l.place) :
    ∀ (s : S) (fs : List (Tunnel → Tunnel)) (t : Tunnel) (calls : List BuilderCall),
      fs.length = box.stepsLeft l.place → (∀ f ∈ fs, Keeps view f) → view t = v → ∃ t', view t' = v ∧
        Building.run env fs ⟨pc s l, t, calls⟩ =
          ⟨(last (visits visit s (box.remaining l.place)).1).next,
            (last (visits visit s (box.remaining l.place)).1).update t',
            calls ++ (visits visit s (box.remaining l.place)).2 ++
              (last (visits visit s (box.remaining l.place)).1).calls⟩ := by
  refine Loops.nest_induction hb (motive := fun l => ∀ (s : S) (fs : List (Tunnel → Tunnel)) (t : Tunnel)
    (calls : List BuilderCall), fs.length = box.stepsLeft l.place → (∀ f ∈ fs, Keeps view f) → view t = v →
      ∃ t', view t' = v ∧ Building.run env fs ⟨pc s l, t, calls⟩ =
        ⟨(last (visits visit s (box.remaining l.place)).1).next,
          (last (visits visit s (box.remaining l.place)).1).update t',
          calls ++ (visits visit s (box.remaining l.place)).2 ++
            (last (visits visit s (box.remaining l.place)).1).calls⟩) ?_ ?_ ?_ l hw
  · -- a condition holds
    intro l hw h ih s fs t calls hlen hfs ht
    rw [stepsLeft_enter hb h] at hlen
    obtain ⟨f, fs, rfl⟩ := List.exists_cons_of_length_eq_add_one hlen
    have hft : view (f t) = v := (hfs f List.mem_cons_self t).trans ht
    have hfs' : ∀ g ∈ fs, Keeps view g := fun g hg => hfs g (List.mem_cons_of_mem f hg)
    rw [run_cons, hn.enter _ s l hft h, remaining_enter hb h]
    by_cases hz : l.level = .z
    · -- the innermost body visits its cell
      obtain ⟨t', ht', hrun⟩ := ih (visit s l.cell).1 fs (f t) (calls ++ (visit s l.cell).2)
        (by simpa using hlen) hfs' hft
      refine ⟨t', ht', ?_⟩
      rw [if_pos hz, if_pos hz, if_pos hz]
      refine hrun.trans ?_
      simp only [List.cons_append, List.nil_append, visits, List.append_assoc]
    · obtain ⟨t', ht', hrun⟩ := ih s fs (f t) calls (by simpa using hlen) hfs' hft
      refine ⟨t', ht', ?_⟩
      rw [if_neg hz, if_neg hz, if_neg hz, List.nil_append]
      simpa only [List.append_nil, id_eq] using hrun
  · -- a condition fails, and the loop around goes on
    intro l l' hw h hl ih s fs t calls hlen hfs ht
    rw [stepsLeft_leave hb hw h hl] at hlen
    obtain ⟨f, fs, rfl⟩ := List.exists_cons_of_length_eq_add_one hlen
    have hft : view (f t) = v := (hfs f List.mem_cons_self t).trans ht
    obtain ⟨t', ht', hrun⟩ := ih s fs (f t) calls (by simpa using hlen)
      (fun g hg => hfs g (List.mem_cons_of_mem f hg)) hft
    refine ⟨t', ht', ?_⟩
    rw [run_cons, hn.leave _ s l l' hft h hl, remaining_leave hb hw h hl]
    simpa only [List.append_nil, id_eq] using hrun
  · -- the outermost condition fails
    intro l hw h hl s fs t calls hlen hfs ht
    rw [stepsLeft_done hb hw h hl] at hlen
    obtain ⟨f, rfl⟩ := List.length_eq_one_iff.mp hlen
    have hft : view (f t) = v := (hfs f List.mem_cons_self t).trans ht
    refine ⟨f t, hft, ?_⟩
    rw [run_cons, hn.done _ s l hft h hl, remaining_done hb hw h hl]
    simp [Building.run, visits]

/-! ## Between the operations -/

section Between

variable (env : Env) {t : Tunnel}

theorem iteration_paste_idle (h : t.paste.start = false) : builderIteration env t .paste = { next := .copy } :=
  if_neg (ne_true_of_eq_false h)

theorem iteration_paste_start (h : t.paste.start = true) : builderIteration env t .paste = pasteStart env t :=
  if_pos h

theorem iteration_copy_idle (h : t.copy.start = false) : builderIteration env t .copy = { next := .cuboid } :=
  if_neg (ne_true_of_eq_false h)

theorem iteration_copy_start (h : t.copy.start = true) : builderIteration env t .copy = copyStart t := if_pos h

theorem iteration_cuboid_idle (h : t.cuboid.start = false) : builderIteration env t .cuboid = { next := .paste } :=
  if_neg (fun hs => ne_true_of_eq_false h hs.1)

theorem iteration_cuboid_start (h : t.cuboid.start = true) (htype : t.cuboid.type = 0) :
    builderIteration env t .cuboid = cuboidStart t := if_pos ⟨h, htype⟩

end Between

/-! ## What an iteration can do -/

/-- What an iteration can do: from where to where, and what it changes. -/
inductive BuilderStep (env : Env) (t : Tunnel) : Pc → Pc → (Tunnel → Tunnel) → Prop where
  | pasteIdle : BuilderStep env t .paste .copy id
  | pasteCrash : BuilderStep env t .paste .crashed id
  | pasteStart (p : Pasting) (l : Loops) (x y z : UInt16) (hidden : p.hidden = t.hide) :
      BuilderStep env t .paste (.pasteLoop p l) (fun t => { t with
        hide := true
        paste := { t.paste with x := x, y := y, z := z } })
  | pasteOn (p p' : Pasting) (l l' : Loops) (hidden : p'.hidden = p.hidden) :
      BuilderStep env t (.pasteLoop p l) (.pasteLoop p' l') id
  | pasteHalt (p : Pasting) (l l' : Loops) : BuilderStep env t (.pasteLoop p l) (.pasteLoop p l') pasteStop
  | pasteEnd (p : Pasting) (l : Loops) :
      BuilderStep env t (.pasteLoop p l) .copy (fun t => unhide p.hidden (pasteStop t))
  | copyIdle : BuilderStep env t .copy .cuboid id
  | copyCrash (size : Int) :
      BuilderStep env t .copy .crashed (fun t => { t with copy := { copySorted t.copy with size := size } })
  | copyStart (copyBuf : Bytes) (l : Loops) (size : Int) :
      BuilderStep env t .copy (.copyLoop copyBuf l)
        (fun t => { t with copy := { copySorted t.copy with size := size } })
  | copyOn (copyBuf copyBuf' : Bytes) (l l' : Loops) :
      BuilderStep env t (.copyLoop copyBuf l) (.copyLoop copyBuf' l') id
  | copyDone (copyBuf : Bytes) (l : Loops) : BuilderStep env t (.copyLoop copyBuf l) (.copyWrite copyBuf) id
  | copyFinish (copyBuf : Bytes) : BuilderStep env t (.copyWrite copyBuf) .cuboid (copyFinish env copyBuf).update
  | cuboidIdle : BuilderStep env t .cuboid .paste id
  | cuboidStart (l : Loops) : BuilderStep env t .cuboid (.cuboidLoop t.hide l)
      (fun t => { t with hide := true, cuboid := cuboidSorted t.cuboid })
  | cuboidOn (hidden : Bool) (l l' : Loops) : BuilderStep env t (.cuboidLoop hidden l) (.cuboidLoop hidden l') id
  | cuboidHalt (hidden : Bool) (l l' : Loops) :
      BuilderStep env t (.cuboidLoop hidden l) (.cuboidLoop hidden l') cuboidStop
  | cuboidEnd (hidden : Bool) (l : Loops) :
      BuilderStep env t (.cuboidLoop hidden l) .paste (fun t => unhide hidden (cuboidStop t))
  | crashed : BuilderStep env t .crashed .crashed id

theorem builderStep_pasteLeave (env : Env) (t : Tunnel) (p : Pasting) (l : Loops) :
    BuilderStep env t (.pasteLoop p l) (pasteLeave p l).next (pasteLeave p l).update := by
  unfold pasteLeave
  cases l.leave with
  | some l' => exact .pasteOn p p l l' rfl
  | none => exact .pasteEnd p l

/-- **Every iteration** is one of these. -/
theorem builderStep (env : Env) (t : Tunnel) (pc : Pc) :
    BuilderStep env t pc (builderIteration env t pc).next (builderIteration env t pc).update := by
  unfold builderIteration
  -- one constructor for each way out of an iteration
  cases pc with
  | paste =>
      dsimp only
      split_ifs
      · unfold pasteStart
        cases t.files (cstr t.paste.chunkName) with
        | none => exact .pasteCrash
        | some chunk => exact .pasteStart _ _ _ _ _ rfl
      · exact .pasteIdle
  | pasteLoop p l =>
      dsimp only
      unfold pasteIteration
      split_ifs with hin hz hhalt
      · -- halted in the innermost loop: the one around it goes on
        have hleave : l.leave = some { l with level := .x, vx := l.vx + 1 } := by
          unfold Loops.leave
          rw [hz]
        simp only [pasteLeave, hleave]
        exact .pasteHalt p l _
      · exact .pasteOn p _ l _ rfl
      · exact .pasteOn p p l _ rfl
      · exact builderStep_pasteLeave env t p l
  | copy =>
      dsimp only
      split_ifs
      · unfold copyStart
        dsimp only
        split_ifs
        · exact .copyCrash _
        · exact .copyStart _ _ _
      · exact .copyIdle
  | copyLoop copyBuf l =>
      dsimp only
      unfold copyIteration
      split_ifs
      · exact .copyOn _ _ _ _
      · exact .copyOn _ _ _ _
      · cases l.leave with
        | some l' => exact .copyOn _ _ _ _
        | none => exact .copyDone _ _
  | copyWrite copyBuf => exact .copyFinish copyBuf
  | cuboid =>
      dsimp only
      split_ifs
      · exact .cuboidStart _
      · exact .cuboidIdle
  | cuboidLoop hidden l =>
      dsimp only
      unfold cuboidIteration cuboidLeave
      split_ifs
      · -- halted: the flag falls twice, if this is the outermost loop
        cases l.leave with
        | some l' => exact .cuboidHalt hidden l l'
        | none => exact .cuboidEnd hidden l
      · exact .cuboidOn hidden l _
      · exact .cuboidOn hidden l _
      · cases l.leave with
        | some l' => exact .cuboidOn hidden l l'
        | none => exact .cuboidEnd hidden l
  | crashed => exact .crashed

/-! ## The blocks among the calls -/

theorem setBlocks_append (calls calls' : List BuilderCall) :
    setBlocks (calls ++ calls') = setBlocks calls ++ setBlocks calls' :=
  List.filterMap_append

end LavaTunnel
