import LavaTunnel.Correctness.Placement
import LavaTunnel.Correctness.Nest

/-!
# `LavaTunnel.Correctness.Cancel` — what `cancel` leaves behind

After a `cancel` nothing should be left of earlier requests: nothing waits, and a later request is built as it
would be from the start. Two flags stay. `cuboid.place` is not taken back, and `paste.halt` is never cleared,
so after a `cancel` no paste places anything (`pasteStep_run`). Cuboids and copies are built as from
the start: the two states agree on all that the builder reads (`SameBuild`), which is a simulation
(`sameBuild_step`).
-/

namespace LavaTunnel

open Wire

/-! ## Later requests -/

/-- The payload of a click. -/
abbrev Click := { payload : Bytes // payload.length = 8 }

/-- A placement command, and the clicks it asks for. -/
inductive Request where
  | z (text : Bytes) (h : arg0 text = some (ascii "z")) (first second : Click)
  | copy (text : Bytes) (h : arg0 text = some (ascii "copy")) (first second : Click)
  | paste (text : Bytes) (h : arg0 text = some (ascii "paste")) (point : Click)

/-- The state after a request. -/
def Request.made (env : Env) : Request → Tunnel → Tunnel
  | .z text _ first second, t => clicked env second (clicked env first (commanded env text t))
  | .copy text _ first second, t => clicked env second (clicked env first (commanded env text t))
  | .paste text _ point, t => clicked env point (commanded env text t)

def Request.IsPaste : Request → Prop
  | .paste .. => True
  | _ => False

/-- The state at the start, with the level and the disk of `t`. -/
def initial (t : Tunnel) : Tunnel :=
  { map := t.map, mapAlloc := t.mapAlloc, lvlx := t.lvlx, lvly := t.lvly, lvlz := t.lvlz, files := t.files }

/-- The builder after `n` iterations on its own. -/
def building (env : Env) (t : Tunnel) (n : Nat) : Building :=
  Building.run env (List.replicate n id) ⟨.paste, t, []⟩

/-- `cancel` leaves nothing behind: nothing waits, and the builder makes of a later request what it would
    make of it from the start. -/
structure NoResidue (env : Env) (t : Tunnel) (req : Request) : Prop where
  unplaced : Unplaced (commanded env (ascii "cancel") t)
  calls : ∀ n, setBlocks (building env (req.made env (commanded env (ascii "cancel") t)) n).calls =
    setBlocks (building env (req.made env (initial t)) n).calls
  files : ∀ n, (building env (req.made env (commanded env (ascii "cancel") t)) n).state.files =
    (building env (req.made env (initial t)) n).state.files

/-! ## The states the builder cannot tell apart -/

/-- The same copy up to `size`, which is computed anew. -/
def SameCopy (t s : Tunnel) : Prop := ∃ size, t.copy = { s.copy with size := size }

/-- The same cuboid up to the speed, which does not matter for what is placed. -/
def SameCuboid (t s : Tunnel) : Prop :=
  ∃ zlimit zspeed, t.cuboid = { s.cuboid with zlimit := zlimit, zspeed := zspeed }

/-- The states agree on what the builder reads, and there is no paste. -/
structure SameBuild (t s : Tunnel) : Prop where
  paste : t.paste.start = false ∧ s.paste.start = false
  copy : t.copy.start = false ∧ s.copy.start = false ∨ SameCopy t s
  cuboid : t.cuboid.start = false ∧ s.cuboid.start = false ∨ SameCuboid t s
  map : t.map = s.map
  lvlx : t.lvlx = s.lvlx
  lvlz : t.lvlz = s.lvlz
  files : t.files = s.files
  hide : t.hide = s.hide

/-- Within a nest the operation is the same in both. -/
def SameAt : Pc → Tunnel → Tunnel → Prop
  | .pasteLoop _ _, _, _ => False
  | .copyLoop _ _, t, s => t.copy = s.copy
  | .copyWrite _, t, s => t.copy = s.copy
  | .cuboidLoop _ _, t, s => SameCuboid t s
  | _, _, _ => True

/-- What two iterations have in common. -/
structure SameStep (t s : Tunnel) (i j : Iteration) : Prop where
  next : i.next = j.next
  calls : setBlocks i.calls = setBlocks j.calls
  build : SameBuild (i.update t) (j.update s)
  at_next : SameAt i.next (i.update t) (j.update s)

section Step

variable {env : Env} {t s : Tunnel} (h : SameBuild t s)

include h

theorem offset_same (x y z : Int16) : calculateOffset t x y z = calculateOffset s x y z := by
  unfold calculateOffset
  rw [h.lvlx, h.lvlz]

/-- An iteration that changes nothing the builder reads. -/
theorem sameStep_keep {pc : Pc} (hat : SameAt pc t s) {calls calls' : List BuilderCall}
    (hcalls : setBlocks calls = setBlocks calls') :
    SameStep t s { next := pc, calls := calls } { next := pc, calls := calls' } :=
  ⟨rfl, hcalls, h, hat⟩

omit h in
theorem setBlocks_copyStart (t : Tunnel) : setBlocks (copyStart t).calls = [] := rfl

theorem sameStep_copyStart (hsame : SameCopy t s) : SameStep t s (copyStart t) (copyStart s) := by
  obtain ⟨size, hcopy⟩ := hsame
  -- the corners are the same, so the sizes are
  have hsorted : copySorted t.copy = { copySorted s.copy with size := size } := by
    rw [hcopy]
    rfl
  have hsize : copySize (copySorted t.copy) = copySize (copySorted s.copy) := by
    rw [hsorted]
    rfl
  have hcopied : ((copyStart t).update t).copy = ((copyStart s).update s).copy := by
    show { copySorted t.copy with size := copySize (copySorted t.copy) } =
      { copySorted s.copy with size := copySize (copySorted s.copy) }
    rw [hsize, hsorted]
  have hnext : (copyStart t).next = (copyStart s).next := by
    show (if copySize (copySorted t.copy) < 0 then Pc.crashed else .copyLoop (copyHeader (copySorted t.copy)) _) =
      if copySize (copySorted s.copy) < 0 then Pc.crashed else .copyLoop (copyHeader (copySorted s.copy)) _
    rw [hsize, hsorted]
    rfl
  have hat : SameAt (copyStart t).next ((copyStart t).update t) ((copyStart s).update s) := by
    show SameAt (if copySize (copySorted t.copy) < 0 then Pc.crashed else .copyLoop _ _) _ _
    split_ifs
    · trivial
    · exact hcopied
  exact ⟨hnext, (setBlocks_copyStart t).trans (setBlocks_copyStart s).symm,
    ⟨h.paste, Or.inr ⟨_, hcopied⟩, h.cuboid, h.map, h.lvlx, h.lvlz, h.files, h.hide⟩, hat⟩

theorem sameStep_copyLoop (buf : Bytes) (l : Loops) (hcopy : t.copy = s.copy) :
    SameStep t s (copyIteration t buf l) (copyIteration s buf l) := by
  have hbounds : copyBounds t = copyBounds s := by
    unfold copyBounds
    rw [hcopy]
  have hloop : ∀ buf l, SameAt (.copyLoop buf l) t s := fun _ _ => hcopy
  unfold copyIteration
  rw [hbounds, h.map, offset_same h]
  split_ifs
  · exact sameStep_keep h (hloop _ _) rfl
  · exact sameStep_keep h (hloop _ _) rfl
  · cases l.leave with
    | some l' => exact sameStep_keep h (hloop _ _) rfl
    | none => exact sameStep_keep h (show SameAt (.copyWrite _) t s from hcopy) rfl

theorem sameStep_copyFinish (buf : Bytes) (hcopy : t.copy = s.copy) :
    SameStep t s (copyFinish env buf) (copyFinish env buf) := by
  refine ⟨rfl, rfl, ⟨h.paste, Or.inl ⟨rfl, rfl⟩, h.cuboid, h.map, h.lvlx, h.lvlz, ?_, h.hide⟩, trivial⟩
  show Function.update t.files _ _ = Function.update s.files _ _
  rw [hcopy, h.files]

theorem sameStep_cuboidStart (hsame : SameCuboid t s) : SameStep t s (cuboidStart t) (cuboidStart s) := by
  obtain ⟨zlimit, zspeed, hcuboid⟩ := hsame
  have hsorted : cuboidSorted t.cuboid = { cuboidSorted s.cuboid with zlimit := zlimit, zspeed := zspeed } := by
    rw [hcuboid]
    rfl
  have hcorners : SameCuboid ((cuboidStart t).update t) ((cuboidStart s).update s) := ⟨zlimit, zspeed, hsorted⟩
  refine ⟨?_, rfl, ⟨h.paste, h.copy, Or.inr hcorners, h.map, h.lvlx, h.lvlz, h.files, rfl⟩, hcorners⟩
  show Pc.cuboidLoop t.hide ⟨.y, (cuboidSorted t.cuboid).x1.toInt16, (cuboidSorted t.cuboid).y1.toInt16,
    (cuboidSorted t.cuboid).z1.toInt16⟩ = .cuboidLoop s.hide _
  rw [hsorted, h.hide]

/-- Both leave a loop of the cuboid in the same way; `f` and `g` are what they have done just before. -/
theorem sameStep_cuboidLeave (hidden : Bool) (l : Loops) (hsame : SameCuboid t s) :
    SameStep t s (cuboidLeave hidden l) (cuboidLeave hidden l) := by
  unfold cuboidLeave
  cases l.leave with
  | some l' => exact sameStep_keep h (show SameAt (.cuboidLoop _ _) t s from hsame) rfl
  | none =>
      refine ⟨rfl, rfl, ⟨h.paste, h.copy, Or.inl ⟨rfl, rfl⟩, h.map, h.lvlx, h.lvlz, h.files, ?_⟩, trivial⟩
      show (if hidden then t.hide else false) = if hidden then s.hide else false
      rw [h.hide]

theorem sameStep_cuboidLoop (hidden : Bool) (l : Loops) (hsame : SameCuboid t s) :
    SameStep t s (cuboidIteration t hidden l) (cuboidIteration s hidden l) := by
  obtain ⟨zlimit, zspeed, hcuboid⟩ := hsame
  have hbounds : cuboidBounds t = cuboidBounds s := by
    unfold cuboidBounds
    rw [hcuboid]
  have hhalt : t.cuboid.halt = s.cuboid.halt := by rw [hcuboid]
  have hblock : t.cuboid.block = s.cuboid.block := by rw [hcuboid]
  have hloop : ∀ l, SameAt (.cuboidLoop hidden l) t s := fun _ => ⟨zlimit, zspeed, hcuboid⟩
  have hbody : setBlocks (cuboidBody t l) = setBlocks (cuboidBody s l) := by
    unfold cuboidBody
    rw [h.map, offset_same h, hblock]
    split_ifs <;> rfl
  -- the condition, the flag and the block are the same, so both take the same branch
  unfold cuboidIteration
  rw [hbounds, hhalt]
  split_ifs
  · -- halted: the flag comes down first
    have hstop : SameBuild (cuboidStop t) (cuboidStop s) :=
      ⟨h.paste, h.copy, Or.inl ⟨rfl, rfl⟩, h.map, h.lvlx, h.lvlz, h.files, h.hide⟩
    have hstopped : SameCuboid (cuboidStop t) (cuboidStop s) :=
      ⟨zlimit, zspeed, by unfold cuboidStop; rw [hcuboid]⟩
    have hleave := sameStep_cuboidLeave hstop hidden l hstopped
    exact ⟨hleave.next, hleave.calls, hleave.build, hleave.at_next⟩
  · exact sameStep_keep h (hloop _) hbody
  · exact sameStep_keep h (hloop _) rfl
  · exact sameStep_cuboidLeave h hidden l ⟨zlimit, zspeed, hcuboid⟩

/-- **The simulation.** From states it cannot tell apart the builder does the same. -/
theorem sameBuild_step (env : Env) {pc : Pc} (hat : SameAt pc t s) :
    SameStep t s (builderIteration env t pc) (builderIteration env s pc) := by
  have hkeep : ∀ pc : Pc, SameAt pc t s → SameStep t s { next := pc } { next := pc } :=
    fun pc hat => sameStep_keep h hat rfl
  cases pc with
  | paste =>
      rw [iteration_paste_idle env h.paste.1, iteration_paste_idle env h.paste.2]
      exact hkeep .copy trivial
  | pasteLoop p l => exact absurd hat id
  | copy =>
      -- idle in both, or the same copy in both
      rcases h.copy with ⟨ht, hs⟩ | hsame
      · rw [iteration_copy_idle env ht, iteration_copy_idle env hs]
        exact hkeep .cuboid trivial
      · have hstart : t.copy.start = s.copy.start := by
          obtain ⟨size, hcopy⟩ := hsame
          rw [hcopy]
        cases hs : s.copy.start with
        | false =>
            rw [iteration_copy_idle env (hstart.trans hs), iteration_copy_idle env hs]
            exact hkeep .cuboid trivial
        | true =>
            rw [iteration_copy_start env (hstart.trans hs), iteration_copy_start env hs]
            exact sameStep_copyStart h hsame
  | copyLoop buf l => exact sameStep_copyLoop h buf l hat
  | copyWrite buf => exact sameStep_copyFinish h buf hat
  | cuboid =>
      -- idle in both, or the same cuboid in both
      rcases h.cuboid with ⟨ht, hs⟩ | hsame
      · rw [iteration_cuboid_idle env ht, iteration_cuboid_idle env hs]
        exact hkeep .paste trivial
      · have hstart : t.cuboid.start = s.cuboid.start ∧ t.cuboid.type = s.cuboid.type := by
          obtain ⟨zlimit, zspeed, hcuboid⟩ := hsame
          rw [hcuboid]
          exact ⟨rfl, rfl⟩
        by_cases hs : s.cuboid.start = true ∧ s.cuboid.type = 0
        · rw [iteration_cuboid_start env (hstart.1.trans hs.1) (hstart.2.trans hs.2),
            iteration_cuboid_start env hs.1 hs.2]
          exact sameStep_cuboidStart h hsame
        · -- whatever keeps one of them from it keeps the other
          have hidle : ∀ r : Tunnel, r.cuboid.start = s.cuboid.start → r.cuboid.type = s.cuboid.type →
              builderIteration env r .cuboid = { next := .paste } := by
            intro r hr hr'
            exact if_neg (fun hs' => hs ⟨hr.symm.trans hs'.1, hr'.symm.trans hs'.2⟩)
          rw [hidle t hstart.1 hstart.2, hidle s rfl rfl]
          exact hkeep .paste trivial
  | cuboidLoop hidden l => exact sameStep_cuboidLoop h hidden l hat
  | crashed => exact hkeep .crashed trivial

end Step

theorem run_alone_succ (env : Env) (pc : Pc) (t : Tunnel) (calls : List BuilderCall) (n : Nat) :
    Building.run env (List.replicate (n + 1) id) ⟨pc, t, calls⟩ =
      Building.run env (List.replicate n id) ⟨(builderIteration env t pc).next,
        (builderIteration env t pc).update t, calls ++ (builderIteration env t pc).calls⟩ := rfl

/-- The whole run. -/
theorem sameBuild_run (env : Env) {t s : Tunnel} (h : SameBuild t s) {pc : Pc} (hat : SameAt pc t s)
    {calls calls' : List BuilderCall} (hcalls : setBlocks calls = setBlocks calls') (n : Nat) :
    setBlocks (Building.run env (List.replicate n id) ⟨pc, t, calls⟩).calls =
        setBlocks (Building.run env (List.replicate n id) ⟨pc, s, calls'⟩).calls ∧
      (Building.run env (List.replicate n id) ⟨pc, t, calls⟩).state.files =
        (Building.run env (List.replicate n id) ⟨pc, s, calls'⟩).state.files := by
  induction n generalizing t s pc calls calls' with
  | zero => exact ⟨hcalls, h.files⟩
  | succ n ih =>
      have hstep := sameBuild_step h env hat
      rw [run_alone_succ, run_alone_succ, ← hstep.next]
      refine ih hstep.build hstep.at_next ?_
      rw [setBlocks_append, setBlocks_append, hcalls]
      exact congrArg _ hstep.calls

/-! ## A paste after a `cancel` -/

/-- The builder has a paste at most. -/
structure PasteOnly (t : Tunnel) : Prop where
  copy : t.copy.start = false
  cuboid : t.cuboid.start = false

/-- Where the builder stands with pastes only. -/
def Pc.AtPaste : Pc → Prop
  | .paste => True
  | .pasteLoop _ _ => True
  | .copy => True
  | .cuboid => True
  | .crashed => True
  | _ => False

/-- An iteration of a paste: it leaves the disk alone, and a halted one places nothing. -/
structure PasteStep (t : Tunnel) (i : Iteration) : Prop where
  at_next : i.next.AtPaste
  only : PasteOnly (i.update t)
  files : (i.update t).files = t.files
  halt : (i.update t).paste.halt = t.paste.halt
  calls : t.paste.halt = true → setBlocks i.calls = []

section Paste

variable {t : Tunnel} (h : PasteOnly t)

include h

theorem pasteStep_keep {pc : Pc} (hat : pc.AtPaste) : PasteStep t { next := pc } :=
  ⟨hat, h, rfl, rfl, fun _ => rfl⟩

theorem pasteStep_leave (p : Pasting) (l : Loops) : PasteStep t (pasteLeave p l) := by
  unfold pasteLeave
  cases l.leave with
  | some l' => exact pasteStep_keep h (show Pc.AtPaste (.pasteLoop p l') from trivial)
  | none => exact ⟨trivial, ⟨h.copy, h.cuboid⟩, rfl, rfl, fun _ => rfl⟩

theorem pasteStep_loop (env : Env) (p : Pasting) (l : Loops) : PasteStep t (pasteIteration env t p l) := by
  have hloop : ∀ p l, Pc.AtPaste (.pasteLoop p l) := fun _ _ => trivial
  unfold pasteIteration
  split_ifs with hin hz hhalt
  · -- halted: the innermost loop is left before anything is placed
    have hleave := pasteStep_leave h p l
    exact ⟨hleave.at_next, ⟨h.copy, h.cuboid⟩, rfl, rfl, hleave.calls⟩
  · exact ⟨hloop _ _, h, rfl, rfl, fun hhalt' => absurd hhalt' hhalt⟩
  · exact pasteStep_keep h (hloop _ _)
  · exact pasteStep_leave h p l

theorem pasteStep_iteration (env : Env) {pc : Pc} (hat : pc.AtPaste) :
    PasteStep t (builderIteration env t pc) := by
  cases pc with
  | paste =>
      cases hstart : t.paste.start with
      | false =>
          rw [iteration_paste_idle env hstart]
          exact pasteStep_keep h (show Pc.AtPaste .copy from trivial)
      | true =>
          rw [iteration_paste_start env hstart]
          unfold pasteStart
          cases t.files (cstr t.paste.chunkName) with
          | none => exact pasteStep_keep h (show Pc.AtPaste .crashed from trivial)
          | some chunk => exact ⟨trivial, ⟨h.copy, h.cuboid⟩, rfl, rfl, fun _ => rfl⟩
  | pasteLoop p l => exact pasteStep_loop h env p l
  | copy =>
      -- the other two have nothing to do
      rw [iteration_copy_idle env h.copy]
      exact pasteStep_keep h (show Pc.AtPaste .cuboid from trivial)
  | cuboid =>
      rw [iteration_cuboid_idle env h.cuboid]
      exact pasteStep_keep h (show Pc.AtPaste .paste from trivial)
  | crashed => exact pasteStep_keep h (show Pc.AtPaste .crashed from trivial)
  -- a paste alone never gets there
  | copyLoop buf l => exact absurd hat id
  | copyWrite buf => exact absurd hat id
  | cuboidLoop hidden l => exact absurd hat id

end Paste

/-- **A halted paste places nothing**, and no paste writes a file. -/
theorem pasteStep_run (env : Env) {t : Tunnel} (h : PasteOnly t) {pc : Pc} (hat : pc.AtPaste)
    (calls : List BuilderCall) (n : Nat) :
    (Building.run env (List.replicate n id) ⟨pc, t, calls⟩).state.files = t.files ∧
      (t.paste.halt = true →
        setBlocks (Building.run env (List.replicate n id) ⟨pc, t, calls⟩).calls = setBlocks calls) := by
  induction n generalizing t pc calls with
  | zero => exact ⟨rfl, fun _ => rfl⟩
  | succ n ih =>
      have hstep := pasteStep_iteration h env hat
      obtain ⟨hfiles, hcalls⟩ := ih hstep.only hstep.at_next (calls ++ (builderIteration env t pc).calls)
      rw [run_alone_succ]
      refine ⟨hfiles.trans hstep.files, fun hhalt => (hcalls (hstep.halt.trans hhalt)).trans ?_⟩
      rw [setBlocks_append, hstep.calls hhalt, List.append_nil]

/-! ## The state after a request -/

section Made

variable (env : Env) {t : Tunnel} (h : Unplaced t) {text : Bytes}

include h

theorem clicked_unplaced (p : Click) : clicked env p t = t := clicked_of_not_zPlace env p.2 h.zPlace

theorem made_z (htext : arg0 text = some (ascii "z")) (p q : Click) :
    (Request.z text htext p q).made env t =
      cuboidSecond (clickPoint q) (byte (field q 7 1)) (cuboidFirst (clickPoint p)
        (cuboidRequested (arg1 text) t)) := by
  have halone : Op.cuboid.Alone (cuboidRequested (arg1 text) t) := by
    refine ⟨rfl, fun o ho => ?_⟩
    cases o with
    | cuboid => rfl
    | copy => exact absurd ho (ne_true_of_eq_false (h.place .copy))
    | paste => exact absurd ho (ne_true_of_eq_false (h.place .paste))
  have halone' : Op.cuboid.Alone (cuboidFirst (clickPoint p) (cuboidRequested (arg1 text) t)) :=
    halone.congr fun o => by cases o <;> rfl
  unfold Request.made
  dsimp only
  rw [commanded_z env t htext, clicked_of_zPlace env p.2 rfl, pointed_of_alone_cuboid halone,
    cuboidPointed_first _ _ rfl rfl, clicked_of_zPlace env q.2 rfl, pointed_of_alone_cuboid halone',
    cuboidPointed_second _ _ rfl rfl]

theorem made_copy (htext : arg0 text = some (ascii "copy")) (p q : Click) :
    (Request.copy text htext p q).made env t =
      if arg1 text = none then t
      else copySecond (clickPoint q) (copyFirst (clickPoint p) (copyRequested (arg1 text) t)) := by
  unfold Request.made
  dsimp only
  rw [commanded_copy env t htext]
  cases arg1 text with
  | none =>
      rw [if_pos rfl]
      show clicked env q (clicked env p t) = t
      rw [clicked_unplaced env h, clicked_unplaced env h]
  | some name =>
      -- the copy waits alone, so that both clicks are its own
      have halone : Op.copy.Alone (copyRequested (some name) t) := by
        refine ⟨rfl, fun o ho => ?_⟩
        cases o with
        | cuboid => exact absurd ho (ne_true_of_eq_false (h.place .cuboid))
        | copy => rfl
        | paste => exact absurd ho (ne_true_of_eq_false (h.place .paste))
      have halone' : Op.copy.Alone (copyFirst (clickPoint p) (copyRequested (some name) t)) :=
        halone.congr fun o => by cases o <;> rfl
      rw [if_neg (Option.some_ne_none name), clicked_of_zPlace env p.2 rfl, pointed_of_alone_copy halone,
        copyPointed_first _ rfl rfl, clicked_of_zPlace env q.2 rfl, pointed_of_alone_copy halone',
        copyPointed_second _ rfl rfl]

theorem made_paste (htext : arg0 text = some (ascii "paste")) (p : Click) :
    (Request.paste text htext p).made env t =
      if arg1 text = none then t else pasteOnly (clickPoint p) (pasteRequested (arg1 text) t) := by
  unfold Request.made
  dsimp only
  rw [commanded_paste env t htext]
  cases arg1 text with
  | none =>
      rw [if_pos rfl]
      exact clicked_unplaced env h p
  | some name =>
      have halone : Op.paste.Alone (pasteRequested (some name) t) := by
        refine ⟨rfl, fun o ho => ?_⟩
        cases o with
        | cuboid => exact absurd ho (ne_true_of_eq_false (h.place .cuboid))
        | copy => exact absurd ho (ne_true_of_eq_false (h.place .copy))
        | paste => rfl
      rw [if_neg (Option.some_ne_none name), clicked_of_zPlace env p.2 rfl, pointed_of_alone_paste halone]

end Made

/-! ## The result -/

theorem unplaced_initial (t : Tunnel) : Unplaced (initial t) := ⟨rfl, fun o => by cases o <;> rfl⟩

section Result

variable {env : Env} {t : Tunnel}

variable (env) in
/-- What `cancel` does not touch, and `hide`. -/
theorem cancel_kept (hidle : ∀ o : Op, o.start t = false) :
    (∀ o : Op, o.start (commanded env (ascii "cancel") t) = false) ∧
      (commanded env (ascii "cancel") t).map = t.map ∧ (commanded env (ascii "cancel") t).lvlx = t.lvlx ∧
      (commanded env (ascii "cancel") t).lvlz = t.lvlz ∧ (commanded env (ascii "cancel") t).files = t.files ∧
      (commanded env (ascii "cancel") t).hide = false ∧
      (commanded env (ascii "cancel") t).paste.halt = true := by
  have hstart : ∀ s : Tunnel, (∀ o : Op, o.start s = o.start t) → ∀ o : Op, o.start s = false :=
    fun s hs o => (hs o).trans (hidle o)
  rw [commanded_cancel]
  cases hhide : t.hide with
  | true => exact ⟨hstart _ fun o => by cases o <;> rfl, rfl, rfl, rfl, rfl, rfl, rfl⟩
  | false => exact ⟨hstart _ fun o => by cases o <;> rfl, rfl, rfl, rfl, rfl, hhide, rfl⟩

/-- A cuboid or a copy finds the same after a `cancel` as at the start. -/
theorem sameBuild_made (hidle : ∀ o : Op, o.start t = false) (hplace : t.cuboid.place = false) {req : Request}
    (hreq : ¬ req.IsPaste) :
    SameBuild (req.made env (commanded env (ascii "cancel") t)) (req.made env (initial t)) := by
  have hunplaced := (unplaced_cancel_iff env t).mpr hplace
  obtain ⟨hstart, hmap, hlvlx, hlvlz, hfiles, hhide, -⟩ := cancel_kept env hidle
  -- all that `cancel` leaves behind is named here
  generalize commanded env (ascii "cancel") t = c at *
  have hinit := unplaced_initial t
  cases req with
  | z text htext p q =>
      rw [made_z env hunplaced, made_z env hinit]
      refine ⟨⟨hstart .paste, rfl⟩, Or.inl ⟨hstart .copy, rfl⟩,
        Or.inr ⟨c.cuboid.zlimit, c.cuboid.zspeed, ?_⟩, hmap, hlvlx, hlvlz, hfiles, hhide⟩
      cases arg1 text with
      | none => rfl
      | some block => rfl
  | copy text htext p q =>
      rw [made_copy env hunplaced, made_copy env hinit]
      cases arg1 text with
      | none =>
          rw [if_pos rfl, if_pos rfl]
          exact ⟨⟨hstart .paste, rfl⟩, Or.inl ⟨hstart .copy, rfl⟩, Or.inl ⟨hstart .cuboid, rfl⟩, hmap, hlvlx, hlvlz,
            hfiles, hhide⟩
      | some name =>
          rw [if_neg (Option.some_ne_none name), if_neg (Option.some_ne_none name)]
          exact ⟨⟨hstart .paste, rfl⟩, Or.inr ⟨c.copy.size, rfl⟩, Or.inl ⟨hstart .cuboid, rfl⟩, hmap, hlvlx, hlvlz,
            hfiles, hhide⟩
  | paste text htext p => exact absurd trivial hreq

variable (env) in
/-- A paste finds `paste.halt` after a `cancel`, and nothing to build but itself. -/
theorem pasteOnly_made {c : Tunnel} (hstart : ∀ o : Op, o.start c = false) (hunplaced : Unplaced c) {req : Request}
    (hreq : req.IsPaste) : PasteOnly (req.made env c) ∧ (req.made env c).files = c.files ∧
      (req.made env c).paste.halt = c.paste.halt := by
  cases req with
  | z text htext p q => exact absurd hreq id
  | copy text htext p q => exact absurd hreq id
  | paste text htext p =>
      rw [made_paste env hunplaced]
      cases arg1 text with
      | none =>
          rw [if_pos rfl]
          exact ⟨⟨hstart .copy, hstart .cuboid⟩, rfl, rfl⟩
      | some name =>
          rw [if_neg (Option.some_ne_none name)]
          exact ⟨⟨hstart .copy, hstart .cuboid⟩, rfl, rfl⟩

end Result

end LavaTunnel
