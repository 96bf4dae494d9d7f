import LavaTunnel.Correctness.Requests
import LavaTunnel.Correctness.Nest

/-!
# `LavaTunnel.Correctness.Hide` — builds and the user's choice to hide

A cuboid and a paste hide the user while they run. At their end they set `hide` back to what it was before
them, not to what the user has made of it in the meantime: `unhide` looks at the local `hidden` only. So if
the user was not hidden when the build began, he is not at its end (`build_step`), and what he did with
`hide`, `spectate` and `cancel` during the build is kept just if he was, or if it would have left him
unhidden.
-/

namespace LavaTunnel

open Wire Wire.Prog

/-! ## The commands that touch `hide` -/

/-- A command that reads or writes `hide`. -/
inductive HideCommand where
  | hide
  | spectate (text : Bytes) (h : arg0 text = some (ascii "spectate"))
  | cancel

/-- The state after it. -/
def HideCommand.run (env : Env) : HideCommand → Tunnel → Tunnel
  | .hide => commanded env (ascii "hide")
  | .spectate text _ => commanded env text
  | .cancel => commanded env (ascii "cancel")

/-- The state after several. -/
def hideCommands (env : Env) (cs : List HideCommand) (t : Tunnel) : Tunnel := cs.foldl (fun t c => c.run env t) t

/-- The player that `spectate` finds. -/
def spectated (env : Env) (text : Bytes) (t : Tunnel) : Option Int :=
  (arg1 text).bind (fun name => findPlayer t ids (sameName env name))

/-- The names of the players, which is all that `spectate` looks at. -/
def usernames (t : Tunnel) : Int → Bytes := fun i => (t.player i).username

/-- What a command makes of `hide`. -/
def HideCommand.next (env : Env) (t : Tunnel) : HideCommand → Bool → Bool
  | .hide, h => !h
  | .spectate text _, h => h || (spectated env text t).isSome
  | .cancel, _ => false

section Commands

variable {env : Env} {text : Bytes} {t s : Tunnel}

theorem commandFunc_spectate (h : arg0 text = some (ascii "spectate")) :
    commandFunc env text = (do cmdSpectate env (arg1 text); pure true) := by
  unfold commandFunc
  rw [if_neg (ne_of_arg0 h (by decide)), if_neg (ne_of_arg0 h (by decide)), if_neg (ne_of_arg0 h (by decide)),
    if_neg (ne_of_arg0 h (by decide)), if_neg (ne_of_arg0 h (by decide)), if_neg (ne_of_arg0 h (by decide)), h,
    if_neg (by decide), if_neg (by decide), if_neg (by decide), if_neg (by decide), if_neg (by decide),
    if_neg (by decide), if_neg (by decide), if_neg (by decide), if_neg (by decide), if_neg (by decide),
    if_neg (by decide), if_pos rfl]

theorem commanded_hide (env : Env) (t : Tunnel) :
    commanded env (ascii "hide") t = { t with hide := !t.hide } := by
  have hdispatch : commandFunc env (ascii "hide") = (do cmdHide; pure true) := by
    unfold commandFunc
    rw [if_pos rfl]
  unfold commanded
  rw [hdispatch]
  unfold cmdHide
  rw [run_bind_assoc, run_getState_bind]
  cases hhide : t.hide with
  | true =>
      rw [if_neg (by decide)]
      rfl
  | false =>
      rw [if_pos rfl]
      rfl

theorem commanded_spectate (h : arg0 text = some (ascii "spectate")) :
    commanded env text t =
      match spectated env text t with
      | some i => { t.setPlayer i (fun p => { p with mode := 1 }) with hide := true }
      | none => t := by
  unfold commanded spectated
  rw [commandFunc_spectate h]
  cases arg1 text with
  | none => rfl
  | some name =>
      unfold cmdSpectate
      rw [run_bind_assoc, Option.bind_some, run_getState_bind]
      cases findPlayer t ids (sameName env name) with
      | none => rfl
      | some i => rfl

theorem spectated_congr (h : usernames t = usernames s) : spectated env text t = spectated env text s := by
  have hname : ∀ i, (t.player i).username = (s.player i).username := fun i => congrFun h i
  unfold spectated findPlayer
  simp only [hname]

/-- A command makes of `hide` what it should, and changes no name. -/
theorem hideCommand_run (env : Env) (c : HideCommand) (t : Tunnel) :
    (c.run env t).hide = c.next env t t.hide ∧ usernames (c.run env t) = usernames t := by
  -- `/hide` turns the flag over, `/spectate` sets it and `/cancel` clears it
  cases c with
  | hide =>
      show (commanded env (ascii "hide") t).hide = !t.hide ∧ usernames (commanded env (ascii "hide") t) = _
      rw [commanded_hide]
      exact ⟨rfl, rfl⟩
  | spectate text h =>
      show (commanded env text t).hide = (t.hide || (spectated env text t).isSome) ∧
        usernames (commanded env text t) = _
      rw [commanded_spectate h]
      cases spectated env text t with
      | none => exact ⟨(Bool.or_false t.hide).symm, rfl⟩
      | some i =>
          refine ⟨(Bool.or_true t.hide).symm, funext fun j => ?_⟩
          show (Function.update t.player i _ j).username = (t.player j).username
          by_cases hij : j = i
          · rw [hij, Function.update_self]
          · rw [Function.update_of_ne hij]
  | cancel =>
      show (commanded env (ascii "cancel") t).hide = false ∧ usernames (commanded env (ascii "cancel") t) = _
      rw [commanded_cancel]
      cases hhide : t.hide with
      | true =>
          refine ⟨rfl, funext fun j => ?_⟩
          show (if 0 ≤ j ∧ j < 256 then _ else _ : Player).username = (t.player j).username
          split_ifs <;> rfl
      | false =>
          refine ⟨hhide, funext fun j => ?_⟩
          show (if 0 ≤ j ∧ j < 256 then _ else _ : Player).username = (t.player j).username
          split_ifs <;> rfl

variable (env) in
/-- Commands do the same to `hide` wherever the names are the same. -/
theorem hideCommands_congr (cs : List HideCommand) (hnames : usernames t = usernames s) :
    usernames (hideCommands env cs t) = usernames (hideCommands env cs s) ∧
      (t.hide = s.hide → (hideCommands env cs t).hide = (hideCommands env cs s).hide) := by
  induction cs generalizing t s with
  | nil => exact ⟨hnames, id⟩
  | cons c cs ih =>
      obtain ⟨ht, htn⟩ := hideCommand_run env c t
      obtain ⟨hs, hsn⟩ := hideCommand_run env c s
      obtain ⟨hrest, hhide⟩ := ih (htn.trans (hnames.trans hsn.symm))
      refine ⟨hrest, fun h => hhide ?_⟩
      -- a command reads the names alone, and these are the same
      have hnext : ∀ b, c.next env t b = c.next env s b := by
        intro b
        cases c with
        | hide => rfl
        | spectate text htext =>
            show (b || (spectated env text t).isSome) = (b || (spectated env text s).isSome)
            rw [spectated_congr hnames]
        | cancel => rfl
      rw [ht, hs, hnext, h]

end Commands

/-! ## A build -/

/-- While a build runs: whether the user was hidden when it began. -/
def Pc.hidden : Pc → Option Bool
  | .pasteLoop p _ => some p.hidden
  | .cuboidLoop hidden _ => some hidden
  | _ => none

/-- Iterations from the beginning of a build to its end. Before each one the other threads do something. -/
def BuildEnds (env : Env) : List (Tunnel → Tunnel) → Building → Prop
  | [], b => b.pc.hidden = none
  | f :: fs, b => b.pc.hidden ≠ none ∧ BuildEnds env fs ({ b with state := f b.state }.next env)

/-- What an iteration of a build does to `hide`: nothing, or at the end it is taken back if the user was not
    hidden at the beginning. -/
def HideStep (hidden : Bool) (t : Tunnel) (i : Iteration) : Prop :=
  usernames (i.update t) = usernames t ∧
    (i.next.hidden = some hidden ∧ (i.update t).hide = t.hide ∨
      i.next.hidden = none ∧ (i.update t).hide = (hidden && t.hide))

section Build

variable (env : Env) (t : Tunnel)

theorem unhide_hide (hidden : Bool) (t : Tunnel) : (unhide hidden t).hide = (hidden && t.hide) := by
  cases hidden <;> rfl

variable {t} in
theorem BuilderStep.hideStep {env : Env} {pc next : Pc} {f : Tunnel → Tunnel} (h : BuilderStep env t pc next f)
    {hidden : Bool} (hpc : pc.hidden = some hidden) :
    usernames (f t) = usernames t ∧ (next.hidden = some hidden ∧ (f t).hide = t.hide ∨
      next.hidden = none ∧ (f t).hide = (hidden && t.hide)) := by
  cases h with
  | pasteOn p p' l l' hsame => exact ⟨rfl, Or.inl ⟨(congrArg some hsame).trans hpc, rfl⟩⟩
  | pasteHalt p l l' => exact ⟨rfl, Or.inl ⟨hpc, rfl⟩⟩
  | pasteEnd p l =>
      obtain rfl : p.hidden = hidden := Option.some.inj hpc
      exact ⟨rfl, Or.inr ⟨rfl, unhide_hide p.hidden (pasteStop t)⟩⟩
  | cuboidOn _ l l' => exact ⟨rfl, Or.inl ⟨hpc, rfl⟩⟩
  | cuboidHalt _ l l' => exact ⟨rfl, Or.inl ⟨hpc, rfl⟩⟩
  | cuboidEnd h l =>
      obtain rfl : h = hidden := Option.some.inj hpc
      exact ⟨rfl, Or.inr ⟨rfl, unhide_hide h (cuboidStop t)⟩⟩
  | _ => exact absurd hpc (Option.some_ne_none hidden).symm

/-- **An iteration of a build.** -/
theorem build_step {pc : Pc} {hidden : Bool} (hpc : pc.hidden = some hidden) :
    HideStep hidden t (builderIteration env t pc) :=
  (builderStep env t pc).hideStep hpc

variable {t} in
theorem BuilderStep.begins {env : Env} {pc next : Pc} {f : Tunnel → Tunnel} (h : BuilderStep env t pc next f)
    (hpc : pc.hidden = none) (hnext : next.hidden ≠ none) :
    next.hidden = some t.hide ∧ (f t).hide = true ∧ usernames (f t) = usernames t := by
  cases h with
  | pasteStart p l x y z hhidden => exact ⟨congrArg some hhidden, rfl, rfl⟩
  | cuboidStart l => exact ⟨rfl, rfl, rfl⟩
  | pasteOn | pasteHalt | pasteEnd | cuboidOn | cuboidHalt | cuboidEnd => exact absurd hpc (Option.some_ne_none _)
  | _ => exact absurd rfl hnext

/-- The iteration that begins a build keeps in mind whether the user is hidden. -/
theorem build_begins {pc : Pc} (hpc : pc.hidden = none) (hnext : (builderIteration env t pc).next.hidden ≠ none) :
    (builderIteration env t pc).next.hidden = some t.hide ∧
      ((builderIteration env t pc).update t).hide = true ∧
      usernames ((builderIteration env t pc).update t) = usernames t :=
  (builderStep env t pc).begins hpc hnext

end Build

/-- The whole build beside the commands, against the commands alone: if the user was hidden at the beginning
    `hide` is the same in both, and if not it is off at the end. -/
theorem build_hide (env : Env) {hidden : Bool} (during : List (List HideCommand)) {b : Building} {s : Tunnel}
    (hpc : b.pc.hidden = some hidden) (hends : BuildEnds env (during.map (hideCommands env)) b)
    (hnames : usernames b.state = usernames s) (hhide : hidden = true → b.state.hide = s.hide) :
    (Building.run env (during.map (hideCommands env)) b).state.hide =
      (hidden && (hideCommands env during.flatten s).hide) := by
  -- `s` runs the commands alone: the two states keep the same names, and the same `hide` while it counts
  induction during generalizing b s with
  | nil => exact absurd hends (by simp [BuildEnds, hpc])
  | cons cs during ih =>
      obtain ⟨pc, t, calls⟩ := b
      obtain ⟨-, hends⟩ := hends
      obtain ⟨hsame, hcommands⟩ := hideCommands_congr env cs hnames
      obtain ⟨hkept, hstep⟩ := build_step env (hideCommands env cs t) hpc
      have hflat : hideCommands env (cs :: during).flatten s =
          hideCommands env during.flatten (hideCommands env cs s) := by
        unfold hideCommands
        rw [List.flatten_cons, List.foldl_append]
      rw [hflat, List.map_cons]
      rcases hstep with ⟨hnext, hthrough⟩ | ⟨hnext, hback⟩
      · exact ih hnext hends (hkept.trans hsame) fun h => hthrough.trans (hcommands (hhide h))
      · -- the build is over, so there are no more iterations
        cases during with
        | nil =>
            refine hback.trans ?_
            cases hidden with
            | false => rfl
            | true => exact congrArg _ (hcommands (hhide rfl))
        | cons cs' during => exact absurd hnext hends.1

/-- **A build and `hide`.** A build that begins in the state `t` ends with `hide` as the commands alone would
    have left it just if the user was hidden when it began, or the commands leave him unhidden. -/
theorem build_restores_hide_iff (env : Env) {pc : Pc} {t : Tunnel} (hpc : pc.hidden = none)
    (hbegins : (builderIteration env t pc).next.hidden ≠ none) (during : List (List HideCommand))
    (hends : BuildEnds env (during.map (hideCommands env)) ((⟨pc, t, []⟩ : Building).next env)) :
    (Building.run env (id :: during.map (hideCommands env)) ⟨pc, t, []⟩).state.hide =
        (hideCommands env during.flatten t).hide ↔
      t.hide = true ∨ (hideCommands env during.flatten t).hide = false := by
  obtain ⟨hnext, htrue, hnames⟩ := build_begins env t hpc hbegins
  have hrun := build_hide env during hnext hends (s := t) hnames fun h => htrue.trans h.symm
  have hend : (Building.run env (id :: during.map (hideCommands env)) ⟨pc, t, []⟩).state.hide =
      (t.hide && (hideCommands env during.flatten t).hide) := hrun
  rw [hend]
  cases t.hide <;> cases (hideCommands env during.flatten t).hide <;> decide

/-- Who has hidden and started a cuboid of one block. -/
def hiddenStart : Tunnel := { hide := true, cuboid := { start := true } }

/-- While it is built the user comes out and hides again, and comes out once more. -/
def comesOut : List (List HideCommand) := [[], [.hide, .hide], [], [.hide], [], []]

/-- The user is left as the commands would have it. -/
theorem build_restores_hide_iff_comesOut :
    Pc.hidden .cuboid = none ∧
      (builderIteration {} hiddenStart .cuboid).next.hidden ≠ none ∧
      BuildEnds {} (comesOut.map (hideCommands {})) ((⟨.cuboid, hiddenStart, []⟩ : Building).next {}) ∧
      ((Building.run {} (id :: comesOut.map (hideCommands {})) ⟨.cuboid, hiddenStart, []⟩).state.hide =
          (hideCommands {} comesOut.flatten hiddenStart).hide ↔
        hiddenStart.hide = true ∨ (hideCommands {} comesOut.flatten hiddenStart).hide = false) := by
  have hends : BuildEnds {} (comesOut.map (hideCommands {})) ((⟨.cuboid, hiddenStart, []⟩ : Building).next {}) :=
    ⟨Option.some_ne_none true, Option.some_ne_none true, Option.some_ne_none true, Option.some_ne_none true,
      Option.some_ne_none true, Option.some_ne_none true, rfl⟩
  have hbegins : (builderIteration {} hiddenStart .cuboid).next.hidden ≠ none := Option.some_ne_none true
  exact ⟨rfl, hbegins, hends,
    build_restores_hide_iff {} (show Pc.hidden .cuboid = none from rfl) hbegins comesOut hends⟩

/-- Who hides while a cuboid is built is not hidden after it. -/
theorem build_forgets_hide : ¬ ∀ (env : Env) (pc : Pc) (t : Tunnel) (during : List (List HideCommand)),
    pc.hidden = none → (builderIteration env t pc).next.hidden ≠ none →
    BuildEnds env (during.map (hideCommands env)) ((⟨pc, t, []⟩ : Building).next env) →
    (Building.run env (id :: during.map (hideCommands env)) ⟨pc, t, []⟩).state.hide =
      (hideCommands env during.flatten t).hide := by
  intro h
  have hrun := h {} .cuboid { cuboid := { start := true } } [[.hide], [], [], [], [], []] rfl
    (Option.some_ne_none false)
    ⟨Option.some_ne_none false, Option.some_ne_none false, Option.some_ne_none false, Option.some_ne_none false,
      Option.some_ne_none false, Option.some_ne_none false, rfl⟩
  have hbuild : (Building.run {} (id :: [[HideCommand.hide], [], [], [], [], []].map (hideCommands {}))
      ⟨.cuboid, { cuboid := { start := true } }, []⟩).state.hide = false := rfl
  have halone : (hideCommands {} [[HideCommand.hide], [], [], [], [], []].flatten
      { cuboid := { start := true } }).hide = true := rfl
  rw [hbuild, halone] at hrun
  exact absurd hrun Bool.false_ne_true

end LavaTunnel
