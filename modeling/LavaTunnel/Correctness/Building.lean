import LavaTunnel.Correctness.Activity
import LavaTunnel.Correctness.Chunk
import LavaTunnel.Correctness.MapBounds
import LavaTunnel.Wire.Solo

/-!
# `LavaTunnel.Correctness.Building` — the builder of a run

`Building.run` is the builder on its own, where the other threads are functions that are applied to the state between
two iterations. In a run of the four threads it is exactly that: `builder_runs` reads the functions off the run, and
what the thread has sent off the calls.
-/

namespace LavaTunnel

open Wire Wire.Prog Scan

/-- The packets of a call. They do not depend on the state. -/
def BuilderCall.packets (call : BuilderCall) : List (Socket × Bytes) := (perform call).sent ([] : Bytes) {}

theorem still_perform (call : BuilderCall) : (perform call).Local id fun _ _ => True := by
  cases call with
  | setBlock x y z bid sendpos =>
      exact Local.bind (Local.onlyIf ⟨trivial, trivial, trivial, trivial⟩) fun _ => ⟨trivial, trivial⟩
  | tunnelMsg msg => exact ⟨trivial, trivial⟩

theorem sent_perform (call : BuilderCall) (i : Bytes) (t : Tunnel) : (perform call).sent i t = call.packets := by
  cases call with
  | setBlock x y z bid sendpos =>
      cases sendpos with
      | true => rfl
      | false => rfl
  | tunnelMsg msg => rfl

/-- The packets of some calls. -/
theorem sent_performs (calls : List BuilderCall) (i : Bytes) (t : Tunnel) :
    (forEach perform calls).sent i t = calls.flatMap BuilderCall.packets := by
  induction calls with
  | nil => rfl
  | cons call calls ih =>
      show (perform call >>= fun _ => forEach perform calls).sent i t = _
      rw [Local.sent_then (still_perform call), sent_perform, ih, List.flatMap_cons]

/-- **What the builder sends** in an iteration. -/
theorem sent_builder (env : Env) (pc : Pc) (i : Bytes) (t : Tunnel) :
    (builder env pc).sent i t = (builderIteration env t pc).calls.flatMap BuilderCall.packets := by
  rw [builder_eq, sent_getState_bind]
  unfold afterwards
  rw [sent_update_bind, Local.sent_then (Local.forEach still_perform _), sent_performs]
  -- what is left only says where the thread goes
  cases (builderIteration env t pc).next with
  | _ => exact List.append_nil _

/-- The builder between two iterations, as a thread on its own. -/
def Building.solo (b : Building) : Solo Tunnel Socket Locals :=
  ⟨.builder b.pc, b.state, b.calls.flatMap BuilderCall.packets, false⟩

/-- An iteration that does not end the process. -/
theorem solo_next (env : Env) (b : Building) (f : Tunnel → Tunnel) (input : Bytes)
    (hgoes : (Solo.round (round env .builder) b.solo (f, input)).ended = false) :
    Solo.round (round env .builder) b.solo (f, input) = (({ b with state := f b.state } : Building).next env).solo := by
  obtain ⟨hstate, hresult⟩ := run_builder env (f b.state) input b.pc
  have hround : Solo.round (round env .builder) b.solo (f, input) =
      { locals := (((builder env b.pc).run input (f b.state)).result.map Locals.builder).getD (.builder b.pc)
        state := ((builder env b.pc).run input (f b.state)).state
        sent := b.calls.flatMap BuilderCall.packets ++ (builder env b.pc).sent input (f b.state)
        ended := (((builder env b.pc).run input (f b.state)).result.map Locals.builder).isNone } := by
    have hbody : round env .builder b.solo.locals = (do let pc' ← builder env b.pc; pure (.builder pc')) := rfl
    unfold Solo.round
    rw [hbody, run_bind_pure, sent_bind_pure]
    rfl
  rw [hround] at hgoes ⊢
  rcases hresult with hnone | hsome
  · rw [hnone] at hgoes
    exact Bool.noConfusion hgoes
  · rw [hsome, hstate, sent_builder, ← List.flatMap_append]
    rfl

/-- **The builder on its own.** As long as it does not crash, it makes the calls of `Building.run`. -/
theorem solo_rounds (env : Env) (es : List ((Tunnel → Tunnel) × Bytes)) (b : Building)
    (hgoes : (Solo.rounds (round env .builder) b.solo es).ended = false) :
    Solo.rounds (round env .builder) b.solo es = (Building.run env (es.map Prod.fst) b).solo := by
  induction es generalizing b with
  | nil => rfl
  | cons e es ih =>
      obtain ⟨f, input⟩ := e
      have hfirst : (Solo.round (round env .builder) b.solo (f, input)).ended = false := by
        cases hended : (Solo.round (round env .builder) b.solo (f, input)).ended with
        | false => rfl
        | true =>
            have hstays : Solo.rounds (round env .builder) b.solo ((f, input) :: es) = _ := rounds_ended hended es
            rw [hstays] at hgoes
            exact absurd (hended.symm.trans hgoes) (by decide)
      have hnext := solo_next env b f input hfirst
      have hrest : Solo.rounds (round env .builder) b.solo ((f, input) :: es) =
          Solo.rounds (round env .builder) (Solo.round (round env .builder) b.solo (f, input)) es := rfl
      rw [hrest, hnext] at hgoes ⊢
      exact ih _ hgoes

/-- The builder of a run that has not crashed. -/
theorem turns_building (env : Env) {c : Turns ThreadId Tunnel Socket Locals} {pc : Pc}
    (hpc : c.locals .builder = .builder pc) {sched : List (ThreadId × Bytes)}
    (hgoes : ((tunnel env).turns c sched).ended = false) {b : Building}
    (hb : Building.run env (((tunnel env).interference .builder c id sched).1.map Prod.fst) ⟨pc, c.state, []⟩ = b) :
    ((tunnel env).turns c sched).locals .builder = .builder b.pc ∧
      ((tunnel env).turns c sched).state = ((tunnel env).interference .builder c id sched).2 b.state ∧
        (tunnel env).along ((tunnel env).sends .builder) c sched = b.calls.flatMap BuilderCall.packets := by
  let es := ((tunnel env).interference .builder c id sched).1
  have hsolo : ((tunnel env).turns c sched).locals .builder =
        (Solo.rounds (round env .builder) (⟨pc, c.state, []⟩ : Building).solo es).locals ∧
      ((tunnel env).turns c sched).state = ((tunnel env).interference .builder c id sched).2
        (Solo.rounds (round env .builder) (⟨pc, c.state, []⟩ : Building).solo es).state ∧
      (Solo.rounds (round env .builder) (⟨pc, c.state, []⟩ : Building).solo es).sent =
        [] ++ (tunnel env).along ((tunnel env).sends .builder) c sched ∧
      ((Solo.rounds (round env .builder) (⟨pc, c.state, []⟩ : Building).solo es).ended = true →
        ((tunnel env).turns c sched).ended = true) :=
    turns_solo hpc rfl (fun h => Bool.noConfusion h) sched
  obtain ⟨hlocals, hstate, hsent, hended⟩ := hsolo
  have hends : (Solo.rounds (round env .builder) (⟨pc, c.state, []⟩ : Building).solo es).ended = false := by
    cases hs : (Solo.rounds (round env .builder) (⟨pc, c.state, []⟩ : Building).solo es).ended with
    | false => rfl
    | true => exact absurd ((hended hs).symm.trans hgoes) (by decide)
  rw [solo_rounds env es ⟨pc, c.state, []⟩ hends, hb] at hlocals hstate hsent
  exact ⟨hlocals, hstate, hsent.symm⟩

/-- **The builder of a run.** In every run of the four threads that has not crashed, whatever arrives: the builder
    stands where `Building.run` does, among what the other threads make of the state between its iterations; the
    state is what they have made of the one it left behind; and it has sent the packets of its calls. -/
theorem builder_runs (env : Env) {c : Turns ThreadId Tunnel Socket Locals} {pc : Pc}
    (hpc : c.locals .builder = .builder pc) (sched : List (ThreadId × Bytes))
    (hgoes : ((tunnel env).turns c sched).ended = false) :
    let r := (tunnel env).interference .builder c id sched
    let b := Building.run env (r.1.map Prod.fst) ⟨pc, c.state, []⟩
    ((tunnel env).turns c sched).locals .builder = .builder b.pc ∧
      ((tunnel env).turns c sched).state = r.2 b.state ∧
        (tunnel env).along ((tunnel env).sends .builder) c sched = b.calls.flatMap BuilderCall.packets :=
  turns_building env hpc hgoes rfl

/-- A click away from a cuboid, which the builder sets out on. -/
theorem builder_runs_cuboid :
    let c := beginning { loggedIn := true }
    let sched : List (ThreadId × Bytes) := [(.main, ascii "'z stone"), (.builder, []),
      (.tunnelServer, [0x05, 0, 1, 0, 2, 0, 3, 1, 1]), (.builder, []), (.tunnelServer, [0x05, 0, 1, 0, 2, 0, 3, 1, 1]),
      (.builder, []), (.builder, []), (.builder, [])]
    let r := (tunnel {}).interference .builder c id sched
    let b := Building.run {} (r.1.map Prod.fst) ⟨.paste, c.state, []⟩
    ((tunnel {}).turns c sched).locals .builder = .builder b.pc ∧
      ((tunnel {}).turns c sched).state = r.2 b.state ∧
        (tunnel {}).along ((tunnel {}).sends .builder) c sched = b.calls.flatMap BuilderCall.packets :=
  builder_runs {} rfl _ rfl

/-- The builder, which stood in a nest with `s` and the counters `l`, has visited the cells that remained, in their
    order, has sent what it sends for them and for the end, and nothing else, and goes where the operation goes at its
    end. -/
def NestDone {α T : Type} (env : Env) (view : Tunnel → α) (box : Box) (visit : T → Cell → T × List BuilderCall)
    (last : T → Iteration) (c : Turns ThreadId Tunnel Socket Locals) (s : T) (l : Loops)
    (sched : List (ThreadId × Bytes)) : Prop :=
  let end' := last (visits visit s (box.remaining l.place)).1
  ((tunnel env).turns c sched).locals .builder = .builder end'.next ∧
    (tunnel env).along ((tunnel env).sends .builder) c sched =
      ((visits visit s (box.remaining l.place)).2 ++ end'.calls).flatMap BuilderCall.packets ∧
    ∃ t', view t' = view c.state ∧ ((tunnel env).turns c sched).state =
      ((tunnel env).interference .builder c id sched).2 (end'.update t')

/-- **An operation in a run.** The builder stands anywhere in the nest of a cuboid or a paste that is not halted, or of
    a copy, with its far corner below 32767, and has as many iterations as are left of it; whatever else happens, the
    other threads leave alone what the operation reads, its `halt` among it. Then it visits the cells that remain, in
    their order, sends what it sends for them and for the end, and nothing else, and goes where the operation goes at
    its end. -/
theorem nest_runs {α T : Type} {env : Env} {view : Tunnel → α} {v : α} {b : Bounds} {box : Box} {pc : T → Loops → Pc}
    {visit : T → Cell → T × List BuilderCall} {last : T → Iteration} (hnest : Nest env view v b pc visit last)
    (hb : b.Describes box) {c : Turns ThreadId Tunnel Socket Locals} {s : T} {l : Loops}
    (hpc : c.locals .builder = .builder (pc s l)) (hw : box.Within l.place) (hview : view c.state = v)
    (sched : List (ThreadId × Bytes)) (hgoes : ((tunnel env).turns c sched).ended = false)
    (hrely : (tunnel env).Always (fun c i input => i ≠ .builder → Keeps view ((tunnel env).effect c i input)) c sched)
    (hlen : ((tunnel env).interference .builder c id sched).1.length = box.stepsLeft l.place) :
    NestDone env view box visit last c s l sched := by
  have hkeeps : ∀ e ∈ ((tunnel env).interference .builder c id sched).1, Keeps view e.1 :=
    interference_forall (keeps_id view) (fun hf hg t => (hg _).trans (hf t)) hrely (keeps_id view)
  obtain ⟨t', ht', hrun⟩ := hnest.run hb l hw s (((tunnel env).interference .builder c id sched).1.map Prod.fst)
    c.state []
    ((List.length_map _).trans hlen)
    (fun f hf => by
      obtain ⟨e, he, rfl⟩ := List.mem_map.mp hf
      exact hkeeps e he) hview
  obtain ⟨hlocals, hstate, hsent⟩ := turns_building env hpc hgoes hrun
  exact ⟨hlocals, hsent, t', ht'.trans hview.symm, hstate⟩

/-- A cuboid, a copy and a paste of the cell (1, 2, 3) have been started. -/
def startedOnCell : Tunnel where
  loggedIn := true
  hide := true
  lvlx := 4
  lvly := 4
  lvlz := 4
  cuboid := { x1 := 1, y1 := 2, z1 := 3, x2 := 1, y2 := 2, z2 := 3, block := 1, start := true }
  copy := { x1 := 1, y1 := 2, z1 := 3, x2 := 1, y2 := 2, z2 := 3, size := 7, start := true }
  paste := { x := 1, y := 2, z := 3, start := true }

/-- The builder stands at `pc` there. -/
def standing (pc : Pc) : Turns ThreadId Tunnel Socket Locals where
  state := startedOnCell
  locals
    | .main => .main
    | .tunnelServer => .tunnelServer ⟨true⟩
    | .mcConnect => .mcConnect {}
    | .builder => .builder pc

/-- Before the first condition of a nest over the cell. -/
def atCell : Loops := ⟨.y, 1, 2, 3⟩

/-- The paste of one block of stone. -/
def onePasting : Pasting := ⟨[1, 0, 1, 0, 1, 0, 1], 6, 1, 2, 3, false⟩

/-- Six iterations, and a line on the console. -/
def sixIterations : List (ThreadId × Bytes) :=
  [(.builder, []), (.builder, []), (.main, ascii "hello"), (.builder, []), (.builder, []), (.builder, []),
    (.builder, [])]

/-- The cell is filled, copied, and pasted. -/
theorem nest_runs_cell :
    NestDone {} cuboidView (boxBetween 1 2 3 1 2 3) (fun hidden cell => (hidden, cuboidVisit startedOnCell cell))
        cuboidEnd (standing (.cuboidLoop false atCell)) false atCell sixIterations ∧
      NestDone {} copyView (boxBetween 1 2 3 1 2 3) (fun buf cell => (buf ++ [blockAt startedOnCell cell], [])) copyEnd
        (standing (.copyLoop [1, 0, 1, 0, 1, 0] atCell)) [1, 0, 1, 0, 1, 0] atCell sixIterations ∧
      NestDone {} pasteView (boxBetween 1 2 3 1 2 3)
        (fun k cell => (k + 1, pasteVisit (Env.pasteByte {} onePasting.pastebuf k) cell)) (fun _ => pasteEnd false)
        (standing (.pasteLoop onePasting atCell)) 6 atCell sixIterations := by
  have hrely : ∀ {α : Type} (view : Tunnel → α) (pc : Pc), (tunnel {}).Always
      (fun c i input => i ≠ .builder → Keeps view ((tunnel {}).effect c i input)) (standing pc) sixIterations := by
    intro α view pc
    have hbuilder : ∀ c : Turns ThreadId Tunnel Socket Locals,
        ThreadId.builder ≠ .builder → Keeps view ((tunnel {}).effect c .builder []) := fun c h => absurd rfl h
    have hmain : ∀ c : Turns ThreadId Tunnel Socket Locals, c.locals .main = .main →
        Keeps view ((tunnel {}).effect c .main (ascii "hello")) := by
      intro c hc t
      unfold System.effect
      rw [hc]
      split_ifs <;> rfl
    have hlocals : ((tunnel {}).turns (standing pc) (sixIterations.take 2)).locals .main = .main :=
      (turn_locals_ne (by decide) []).trans (turn_locals_ne (by decide) [])
    exact ⟨hbuilder _, hbuilder _, fun _ => hmain _ hlocals, hbuilder _, hbuilder _, hbuilder _, hbuilder _, trivial⟩
  have hshort : (1 : Int) < 32767 ∧ (2 : Int) < 32767 ∧ (3 : Int) < 32767 := by decide
  have hcuboid : Bounds.Describes (cuboidBounds startedOnCell) (boxBetween 1 2 3 1 2 3) :=
    ⟨rfl, rfl, rfl, rfl, rfl, hshort⟩
  have hcopy : Bounds.Describes (copyBounds startedOnCell) (boxBetween 1 2 3 1 2 3) :=
    ⟨rfl, rfl, rfl, rfl, rfl, hshort⟩
  have hpaste : Bounds.Describes (pasteBounds startedOnCell onePasting) (boxBetween 1 2 3 1 2 3) :=
    ⟨rfl, rfl, rfl, rfl, rfl, hshort⟩
  have hhalt : startedOnCell.cuboid.halt = false ∧ startedOnCell.paste.halt = false := ⟨rfl, rfl⟩
  exact ⟨nest_runs (cuboidNest {} hhalt.1) hcuboid rfl (Box.within_entry _) rfl sixIterations rfl (hrely _ _) rfl,
    nest_runs (copyNest {} startedOnCell) hcopy rfl (Box.within_entry _) rfl sixIterations rfl (hrely _ _) rfl,
    nest_runs (pasteNest {} onePasting hhalt.2) hpaste rfl (Box.within_entry _) rfl sixIterations rfl (hrely _ _) rfl⟩

end LavaTunnel
