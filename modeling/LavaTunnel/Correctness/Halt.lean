import LavaTunnel.Correctness.Isolation
import LavaTunnel.Correctness.Termination

/-!
# `LavaTunnel.Correctness.Halt` — `cancel` stops a build

A halted cuboid leaves each of its three loops at the next condition. A halted paste looks at `halt` in the innermost
loop only, so its outer loops run to their ends, but nothing is placed any more. That holds whatever the other threads
do to the corners in the meantime, as long as they do not take the flag back. `cancel` may also come in the middle of
an iteration, behind the test of the flag: then the block of that iteration is still placed.
-/

namespace LavaTunnel

open Scan Wire

/-- A `cancel` comes, before an iteration, or while one is under way: before it changes the state, or after. -/
inductive Cancelled (env : Env) (b : Building) : Building → Prop where
  | before : Cancelled env b { b with state := commanded env (ascii "cancel") b.state }
  | reading : Cancelled env b
      { pc := (builderIteration env b.state b.pc).next
        state := (builderIteration env b.state b.pc).update (commanded env (ascii "cancel") b.state)
        calls := b.calls ++ (builderIteration env b.state b.pc).calls }
  | changed : Cancelled env b
      { pc := (builderIteration env b.state b.pc).next
        state := commanded env (ascii "cancel") ((builderIteration env b.state b.pc).update b.state)
        calls := b.calls ++ (builderIteration env b.state b.pc).calls }

/-- As long as nobody takes the flag back the builder comes to the exit of the operation, with its start flag down and
    at most one block more than before the `cancel`. -/
def Stops (env : Env) (flag start : Tunnel → Bool) (exit : Pc) (before : List BuilderCall) (b : Building) : Prop :=
  ∃ n, ∀ fs : List (Tunnel → Tunnel), fs.length = n → (∀ f ∈ fs, ∀ t, flag t = true → flag (f t) = true) →
    ∃ m ≤ n, (Building.run env (fs.take m) b).pc = exit ∧ start (Building.run env (fs.take m) b).state = false ∧
      (setBlocks (Building.run env (fs.take m) b).calls).length ≤ (setBlocks before).length + 1

/-! ## A halted operation -/

/-- An operation with its flag up: with `k` iterations left at most, an iteration places nothing and comes nearer to
    the exit. -/
structure Halting (env : Env) (flag start : Tunnel → Bool) (exit : Pc) (left : Nat → Pc → Prop) : Prop where
  keeps : ∀ t k pc, flag t = true → left k pc → flag ((builderIteration env t pc).update t) = true
  idle : ∀ t k pc, flag t = true → left k pc → setBlocks (builderIteration env t pc).calls = []
  next : ∀ t k pc, flag t = true → left k pc → (∃ k' < k, left k' (builderIteration env t pc).next) ∨
    (builderIteration env t pc).next = exit ∧ start ((builderIteration env t pc).update t) = false

section Halting

variable {env : Env} {flag start : Tunnel → Bool} {exit : Pc} {left : Nat → Pc → Prop}

/-- **A halted operation** comes to its exit and places nothing. -/
theorem Halting.run (h : Halting env flag start exit left) {k : Nat} {pc : Pc} (hleft : left k pc) {t : Tunnel}
    (ht : flag t = true) (calls : List BuilderCall) {fs : List (Tunnel → Tunnel)} (hlen : k < fs.length)
    (hfs : ∀ f ∈ fs, ∀ t, flag t = true → flag (f t) = true) :
    ∃ m ≤ k + 1, (Building.run env (fs.take m) ⟨pc, t, calls⟩).pc = exit ∧
      start (Building.run env (fs.take m) ⟨pc, t, calls⟩).state = false ∧
      setBlocks (Building.run env (fs.take m) ⟨pc, t, calls⟩).calls = setBlocks calls := by
  induction k using Nat.strongRecOn generalizing pc t calls fs with
  | ind k ih =>
      obtain ⟨f, fs, rfl⟩ := List.exists_cons_of_length_pos (Nat.zero_lt_of_lt hlen)
      have hft : flag (f t) = true := hfs f List.mem_cons_self t ht
      have hcalls : setBlocks (calls ++ (builderIteration env (f t) pc).calls) = setBlocks calls := by
        rw [setBlocks_append, h.idle _ _ _ hft hleft, List.append_nil]
      rcases h.next _ _ _ hft hleft with ⟨k', hk', hleft'⟩ | ⟨hexit, hstart⟩
      · obtain ⟨m, hm, hpc, hdown, hsame⟩ := ih k' hk' hleft' (h.keeps _ _ _ hft hleft)
          (calls ++ (builderIteration env (f t) pc).calls) (by simp only [List.length_cons] at hlen; omega)
          (fun g hg => hfs g (List.mem_cons_of_mem f hg))
        exact ⟨m + 1, by omega, hpc, hdown, hsame.trans hcalls⟩
      · exact ⟨1, by omega, hexit, hstart, hcalls⟩

/-- Whatever has been called before, there is at most one block more. -/
theorem Halting.stops (h : Halting env flag start exit left) {k : Nat} {b : Building} (hleft : left k b.pc)
    (ht : flag b.state = true) {before : List BuilderCall}
    (hone : (setBlocks b.calls).length ≤ (setBlocks before).length + 1) : Stops env flag start exit before b := by
  refine ⟨k + 1, fun fs hlen hfs => ?_⟩
  have hlt : k < fs.length := by omega
  obtain ⟨m, hm, hpc, hdown, hsame⟩ := h.run hleft ht b.calls hlt hfs
  exact ⟨m, hm, hpc, hdown, by rw [hsame]; exact hone⟩

end Halting

/-- The loops that are around a place. -/
def Loops.depth (l : Loops) : Nat :=
  match l.level with
  | .y => 0
  | .x => 1
  | .z => 2

theorem depth_leave {l l' : Loops} (h : l.leave = some l') : l'.depth < l.depth := by
  obtain ⟨level, vx, vy, vz⟩ := l
  cases level with
  | y => exact absurd h.symm (Option.some_ne_none l')
  | x =>
      obtain rfl := Option.some.inj h
      exact Nat.zero_lt_one
  | z =>
      obtain rfl := Option.some.inj h
      exact Nat.one_lt_two

/-- Inside or not, a halted cuboid leaves its loop. -/
theorem cuboid_leaves (env : Env) {t : Tunnel} (ht : t.cuboid.halt = true) (hidden : Bool) (l : Loops) :
    (builderIteration env t (.cuboidLoop hidden l)).next = (cuboidLeave hidden l).next ∧
      (builderIteration env t (.cuboidLoop hidden l)).calls = (cuboidLeave hidden l).calls ∧
      ∃ s, (s = t ∨ s = cuboidStop t) ∧
        (builderIteration env t (.cuboidLoop hidden l)).update t = (cuboidLeave hidden l).update s := by
  simp only [builderIteration, cuboidIteration, ht, if_true]
  split
  · exact ⟨rfl, rfl, cuboidStop t, Or.inr rfl, rfl⟩
  · exact ⟨rfl, rfl, t, Or.inl rfl, rfl⟩

/-- Behind the outermost loop of a cuboid the flag is down. -/
theorem cuboid_exits {hidden : Bool} {l : Loops} (h : l.leave = none) (s : Tunnel) :
    (cuboidLeave hidden l).next = .paste ∧ ((cuboidLeave hidden l).update s).cuboid.start = false := by
  unfold cuboidLeave
  rw [h]
  exact ⟨rfl, rfl⟩

theorem setBlocks_cuboidLeave (hidden : Bool) (l : Loops) : setBlocks (cuboidLeave hidden l).calls = [] := by
  unfold cuboidLeave
  cases l.leave with
  | some l' => rfl
  | none => rfl

theorem halt_cuboidLeave (hidden : Bool) (l : Loops) (s : Tunnel) :
    ((cuboidLeave hidden l).update s).cuboid.halt = s.cuboid.halt := by
  unfold cuboidLeave
  cases l.leave with
  | some l' => rfl
  | none => rfl

/-- **A halted cuboid** leaves a loop with every iteration. -/
theorem cuboidHalting (env : Env) : Halting env (fun t => t.cuboid.halt) (fun t => t.cuboid.start) .paste
    (fun k pc => ∃ hidden l, pc = .cuboidLoop hidden l ∧ l.depth ≤ k) where
  keeps := by
    rintro t k pc ht ⟨hidden, l, rfl, -⟩
    obtain ⟨-, -, s, hs, hupdate⟩ := cuboid_leaves env ht hidden l
    rw [hupdate, halt_cuboidLeave]
    rcases hs with rfl | rfl
    · exact ht
    · exact ht
  idle := by
    rintro t k pc ht ⟨hidden, l, rfl, -⟩
    rw [(cuboid_leaves env ht hidden l).2.1, setBlocks_cuboidLeave]
  next := by
    rintro t k pc ht ⟨hidden, l, rfl, hk⟩
    obtain ⟨hnext, -, s, -, hupdate⟩ := cuboid_leaves env ht hidden l
    rw [hnext, hupdate]
    cases hl : l.leave with
    | none => exact Or.inr (cuboid_exits hl s)
    | some l' =>
        have hdepth := depth_leave hl
        refine Or.inl ⟨l'.depth, by omega, hidden, l', ?_, le_refl _⟩
        unfold cuboidLeave
        rw [hl]

/-! ## A halted paste -/

/-- The far corner of a paste is below the largest `short`, on the two axes whose loops do not look at the flag. -/
def Pasting.Short (p : Pasting) : Prop := p.px.toInt < 32767 ∧ p.py.toInt < 32767

/-- The conditions that are left to a halted paste. -/
def Pasting.budget (p : Pasting) (l : Loops) : Nat := Box.budget 32767 p.px.toInt p.py.toInt l.place

theorem budget_leave (p : Pasting) {l l' : Loops} (h : l.leave = some l') : p.budget l' < p.budget l := by
  obtain ⟨level, vx, vy, vz⟩ := l
  cases level with
  | y => exact absurd h.symm (Option.some_ne_none l')
  | x =>
      obtain rfl := Option.some.inj h
      show Box.budget _ _ _ ⟨.y, _, (vy + 1).toInt, _⟩ < _
      rw [toInt_add_one]
      exact Box.budget_x_out
  | z =>
      obtain rfl := Option.some.inj h
      show Box.budget _ _ _ ⟨.x, (vx + 1).toInt, _, _⟩ < _
      rw [toInt_add_one]
      exact Box.budget_z_out

/-- Into a loop that is not the innermost one, wherever the point is by now. -/
theorem budget_enter {p : Pasting} (hp : p.Short) {t : Tunnel} {l : Loops} (hz : l.level ≠ .z)
    (hin : l.inside (pasteBounds t p) = true) : p.budget (l.enter (pasteBounds t p)) < p.budget l := by
  obtain ⟨level, vx, vy, vz⟩ := l
  cases level with
  | y =>
      have hnear := le_toInt t.paste.x.toInt16
      show Box.budget _ _ _ ⟨.x, t.paste.x.toInt16.toInt, _, _⟩ < _
      exact Box.budget_y hp.2 (of_decide_eq_true hin) (by omega)
  | x => exact Box.budget_x hp.1 (of_decide_eq_true hin)
  | z => exact absurd rfl hz

/-- A halted paste leaves its loop, or it goes into one that is not the innermost. -/
theorem paste_leaves (env : Env) {t : Tunnel} (ht : t.paste.halt = true) (p : Pasting) (l : Loops) :
    setBlocks (builderIteration env t (.pasteLoop p l)).calls = [] ∧
      ((builderIteration env t (.pasteLoop p l)).update t).paste.halt = true ∧
      ((l.inside (pasteBounds t p) = true ∧ l.level ≠ .z ∧
          (builderIteration env t (.pasteLoop p l)).next = .pasteLoop p (l.enter (pasteBounds t p))) ∨
        (∃ l', l.leave = some l' ∧ (builderIteration env t (.pasteLoop p l)).next = .pasteLoop p l') ∨
        (builderIteration env t (.pasteLoop p l)).next = .copy ∧
          ((builderIteration env t (.pasteLoop p l)).update t).paste.start = false) := by
  simp only [builderIteration, pasteIteration, ht, if_true]
  split_ifs with hin hz
  · -- in the innermost loop the flag is seen
    obtain ⟨level, vx, vy, vz⟩ := l
    obtain rfl : level = .z := hz
    exact ⟨rfl, ht, Or.inr (Or.inl ⟨_, rfl, rfl⟩)⟩
  · exact ⟨rfl, ht, Or.inl ⟨hin, hz, rfl⟩⟩
  · unfold pasteLeave
    cases hl : l.leave with
    | some l' => exact ⟨rfl, ht, Or.inr (Or.inl ⟨l', rfl, rfl⟩)⟩
    | none => exact ⟨rfl, ht, Or.inr (Or.inr ⟨rfl, rfl⟩)⟩

/-- **A halted paste** runs through its two outer loops. -/
theorem pasteHalting (env : Env) : Halting env (fun t => t.paste.halt) (fun t => t.paste.start) .copy
    (fun k pc => ∃ p l, pc = .pasteLoop p l ∧ p.Short ∧ p.budget l ≤ k) where
  keeps := by
    rintro t k pc ht ⟨p, l, rfl, -, -⟩
    exact (paste_leaves env ht p l).2.1
  idle := by
    rintro t k pc ht ⟨p, l, rfl, -, -⟩
    exact (paste_leaves env ht p l).1
  next := by
    rintro t k pc ht ⟨p, l, rfl, hp, hk⟩
    obtain ⟨-, -, ⟨hin, hz, hnext⟩ | ⟨l', hl, hnext⟩ | hexit⟩ := paste_leaves env ht p l
    · exact Or.inl ⟨_, lt_of_lt_of_le (budget_enter hp hz hin) hk, p, _, hnext, hp, le_refl _⟩
    · exact Or.inl ⟨_, lt_of_lt_of_le (budget_leave p hl) hk, p, l', hnext, hp, le_refl _⟩
    · exact Or.inr hexit

/-! ## The iteration that `cancel` comes into -/

/-- What may be under way when the `cancel` comes: one block at most, and the operation goes on or is at its end. -/
structure Interrupted (env : Env) (flag start : Tunnel → Bool) (exit : Pc) (left : Nat → Pc → Prop)
    (it : Iteration) : Prop where
  one : (setBlocks it.calls).length ≤ 1
  keeps : ∀ t, flag (it.update t) = flag t
  next : (∃ k, left k it.next) ∨ it.next = exit ∧ ∀ t, start (it.update t) = false

/-- **A cancelled operation** stops, whichever of its iterations the `cancel` comes into. -/
theorem Halting.cancelled {env : Env} {flag start : Tunnel → Bool} {exit : Pc} {left : Nat → Pc → Prop}
    (h : Halting env flag start exit left) (hraise : ∀ t, flag (commanded env (ascii "cancel") t) = true)
    (hsame : ∀ t, start (commanded env (ascii "cancel") t) = start t) {b b' : Building} (hleft : ∃ k, left k b.pc)
    (hit : Interrupted env flag start exit left (builderIteration env b.state b.pc)) (hb : Cancelled env b b') :
    Stops env flag start exit b.calls b' := by
  have hone : (setBlocks (b.calls ++ (builderIteration env b.state b.pc).calls)).length ≤
      (setBlocks b.calls).length + 1 := by
    rw [setBlocks_append, List.length_append]
    exact Nat.add_le_add_left hit.one _
  cases hb with
  | before =>
      obtain ⟨k, hk⟩ := hleft
      exact h.stops (b := { b with state := commanded env (ascii "cancel") b.state }) hk (hraise _) (Nat.le_succ _)
  | reading =>
      obtain ⟨k, hk⟩ | ⟨hexit, hdown⟩ := hit.next
      · exact h.stops hk ((hit.keeps _).trans (hraise _)) hone
      · exact ⟨0, fun fs _ _ => ⟨0, le_refl 0, hexit, hdown _, hone⟩⟩
  | changed =>
      obtain ⟨k, hk⟩ | ⟨hexit, hdown⟩ := hit.next
      · exact h.stops hk (hraise _) hone
      · exact ⟨0, fun fs _ _ => ⟨0, le_refl 0, hexit, (hsame _).trans (hdown _), hone⟩⟩

theorem cuboidLeave_interrupted (env : Env) (hidden : Bool) (l : Loops) :
    Interrupted env (fun t => t.cuboid.halt) (fun t => t.cuboid.start) .paste
      (fun k pc => ∃ hidden l, pc = .cuboidLoop hidden l ∧ l.depth ≤ k) (cuboidLeave hidden l) where
  one := by
    rw [setBlocks_cuboidLeave]
    exact Nat.zero_le 1
  keeps := halt_cuboidLeave hidden l
  next := by
    cases hl : l.leave with
    | none => exact Or.inr ⟨(cuboid_exits hl {}).1, fun t => (cuboid_exits hl t).2⟩
    | some l' =>
        refine Or.inl ⟨l'.depth, hidden, l', ?_, le_refl _⟩
        unfold cuboidLeave
        rw [hl]

theorem length_cuboidBody (t : Tunnel) (l : Loops) : (setBlocks (cuboidBody t l)).length ≤ 1 := by
  unfold cuboidBody
  split_ifs
  · exact le_refl 1
  · exact Nat.zero_le 1

theorem cuboid_interrupted (env : Env) (t : Tunnel) (hidden : Bool) (l : Loops) :
    Interrupted env (fun t => t.cuboid.halt) (fun t => t.cuboid.start) .paste
      (fun k pc => ∃ hidden l, pc = .cuboidLoop hidden l ∧ l.depth ≤ k)
      (builderIteration env t (.cuboidLoop hidden l)) := by
  have hleave := cuboidLeave_interrupted env hidden l
  simp only [builderIteration, cuboidIteration]
  split_ifs with hin hhalt hz
  · -- halted before the `cancel`
    exact ⟨hleave.one, fun t => hleave.keeps (cuboidStop t),
      hleave.next.imp_right fun h => ⟨h.1, fun t => h.2 (cuboidStop t)⟩⟩
  · exact ⟨length_cuboidBody t l, fun _ => rfl, Or.inl ⟨_, hidden, _, rfl, le_refl _⟩⟩
  · exact ⟨Nat.zero_le 1, fun _ => rfl, Or.inl ⟨_, hidden, _, rfl, le_refl _⟩⟩
  · exact hleave

theorem length_pasteBody (env : Env) (p : Pasting) (l : Loops) : (setBlocks (pasteBody env p l)).length ≤ 1 := by
  simp only [pasteBody]
  split_ifs
  · exact le_refl 1
  · exact Nat.zero_le 1

theorem paste_interrupted (env : Env) (t : Tunnel) {p : Pasting} (hp : p.Short) (l : Loops) :
    Interrupted env (fun t => t.paste.halt) (fun t => t.paste.start) .copy
      (fun k pc => ∃ p l, pc = .pasteLoop p l ∧ p.Short ∧ p.budget l ≤ k)
      (builderIteration env t (.pasteLoop p l)) := by
  simp only [builderIteration, pasteIteration, pasteLeave]
  split_ifs with hin hz hhalt
  · obtain ⟨level, vx, vy, vz⟩ := l
    obtain rfl : level = .z := hz
    exact ⟨Nat.zero_le 1, fun _ => rfl, Or.inl ⟨_, p, _, rfl, hp, le_refl _⟩⟩
  · -- the far corner stays while the place in the chunk moves on
    exact ⟨length_pasteBody env p l, fun _ => rfl, Or.inl ⟨_, _, _, rfl, hp, le_refl _⟩⟩
  · exact ⟨Nat.zero_le 1, fun _ => rfl, Or.inl ⟨_, p, _, rfl, hp, le_refl _⟩⟩
  · cases l.leave with
    | some l' => exact ⟨Nat.zero_le 1, fun _ => rfl, Or.inl ⟨_, p, l', rfl, hp, le_refl _⟩⟩
    | none => exact ⟨Nat.zero_le 1, fun _ => rfl, Or.inr ⟨rfl, fun _ => rfl⟩⟩

/-! ## `cancel` -/

theorem halts_cancel (env : Env) (t : Tunnel) : (commanded env (ascii "cancel") t).cuboid.halt = true ∧
    (commanded env (ascii "cancel") t).paste.halt = true := by
  rw [commanded_cancel]
  exact ⟨rfl, rfl⟩

theorem starts_cancel (env : Env) (t : Tunnel) : (commanded env (ascii "cancel") t).cuboid.start = t.cuboid.start ∧
    (commanded env (ascii "cancel") t).paste.start = t.paste.start := by
  rw [commanded_cancel]
  split_ifs <;> exact ⟨rfl, rfl⟩

/-- Only a `z` takes a flag back, among the commands whose names fit. -/
theorem halts_commanded (env : Env) {text : Bytes} (_hfits : NameFits text) (hz : arg0 text ≠ some (ascii "z"))
    (t : Tunnel) :
    (t.cuboid.halt = true → (commanded env text t).cuboid.halt = true) ∧
      (t.paste.halt = true → (commanded env text t).paste.halt = true) := by
  by_cases hcancel : text = ascii "cancel"
  · rw [hcancel]
    exact ⟨fun _ => (halts_cancel env t).1, fun _ => (halts_cancel env t).2⟩
  · by_cases hcopy : arg0 text = some (ascii "copy")
    · rw [commanded_copy env t hcopy]
      cases arg1 text <;> exact ⟨id, id⟩
    · by_cases hpaste : arg0 text = some (ascii "paste")
      · rw [commanded_paste env t hpaste]
        cases arg1 text <;> exact ⟨id, id⟩
      · have hbuilds := kept_commanded (builds_commandFunc env hcancel hpaste hcopy hz) t
        exact ⟨(congrArg (fun k => k.1.halt) hbuilds).trans, (congrArg (fun k => k.2.2.halt) hbuilds).trans⟩

/-- A click takes none back. -/
theorem halts_clicked (env : Env) {payload : Bytes} (hlen : payload.length = 8) (t : Tunnel) :
    (clicked env payload t).cuboid.halt = t.cuboid.halt ∧ (clicked env payload t).paste.halt = t.paste.halt := by
  cases hz : t.zPlace with
  | false =>
      rw [clicked_of_not_zPlace env hlen hz]
      exact ⟨rfl, rfl⟩
  | true =>
      rw [clicked_of_zPlace env hlen hz, pointed_cuboid, pointed_paste]
      constructor
      · unfold cuboidPointed
        split_ifs <;> rfl
      · unfold pastePointed
        split_ifs <;> rfl

end LavaTunnel
