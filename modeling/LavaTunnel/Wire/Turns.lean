import LavaTunnel.Wire.Tame

/-!
# `Wire.Turns` — threads that take turns

The threads of a `System` again, but a whole round at a time: a turn runs one round of one thread, on the bytes
that arrive for it. This is the level of invariants that every round restores and that are broken in the
middle of a round.

* `System.turns` — a run: who has the next turn, and what arrives for it;
* `turnsWith` — a run whose rounds find a memory of their own as well;
* `Always ok`, `AlwaysWith sys ok` — every turn of a run is in `ok`, in the state it finds;
* `turns_invariant`, `turnsWith_invariant` — what good turns preserve holds in every state of a run of good turns.
-/

namespace Wire

open Prog

/-- The shared state, the locals of each thread, the packets that have been sent, and whether the process has
    ended. -/
structure Turns (τ σ S L : Type) where
  state : σ
  locals : τ → L
  sent : List (S × Bytes) := []
  ended : Bool := false

section Turns

variable {τ σ S L : Type} [DecidableEq τ] {sys : System τ σ S L}

/-- A turn of thread `i`. -/
def System.turn (sys : System τ σ S L) (c : Turns τ σ S L) (i : τ) (input : Bytes) : Turns τ σ S L :=
  if c.ended = false ∧ sys.started i c.state = true then
    let round := sys.body i (c.locals i)
    let o := round.run input c.state
    { state := o.state
      locals := Function.update c.locals i (o.result.getD (c.locals i))
      sent := c.sent ++ round.sent input c.state
      ended := o.result.isNone }
  else c

/-- A run. -/
def System.turns (sys : System τ σ S L) (c : Turns τ σ S L) (sched : List (τ × Bytes)) : Turns τ σ S L :=
  sched.foldl (fun c e => sys.turn c e.1 e.2) c

/-- A run whose rounds find a memory of their own. -/
def turnsWith {ε : Type} (sys : ε → System τ σ S L) (c : Turns τ σ S L) (sched : List (τ × ε × Bytes)) :
    Turns τ σ S L :=
  sched.foldl (fun c e => (sys e.2.1).turn c e.1 e.2.2) c

/-- With the same memory all the time it is a run of one system. -/
theorem turnsWith_eq_turns {ε : Type} (sys : ε → System τ σ S L) (memory : ε) (c : Turns τ σ S L)
    (sched : List (τ × Bytes)) :
    turnsWith sys c (sched.map fun e => (e.1, memory, e.2)) = (sys memory).turns c sched := by
  unfold turnsWith System.turns
  rw [List.foldl_map]

/-- Every turn of the run is good in the state it finds. -/
def System.Always (sys : System τ σ S L) (ok : Turns τ σ S L → τ → Bytes → Prop) :
    Turns τ σ S L → List (τ × Bytes) → Prop
  | _, [] => True
  | c, e :: sched => ok c e.1 e.2 ∧ sys.Always ok (sys.turn c e.1 e.2) sched

/-- The same of a run whose rounds find a memory of their own. -/
def AlwaysWith {ε : Type} (sys : ε → System τ σ S L) (ok : Turns τ σ S L → τ → ε → Bytes → Prop) :
    Turns τ σ S L → List (τ × ε × Bytes) → Prop
  | _, [] => True
  | c, e :: sched => ok c e.1 e.2.1 e.2.2 ∧ AlwaysWith sys ok ((sys e.2.1).turn c e.1 e.2.2) sched

/-- With the same memory all the time it is the same. -/
theorem alwaysWith_same {ε : Type} (sys : ε → System τ σ S L) (memory : ε) {ok : Turns τ σ S L → τ → Bytes → Prop}
    {c : Turns τ σ S L} {sched : List (τ × Bytes)} :
    AlwaysWith sys (fun c i _ input => ok c i input) c (sched.map fun e => (e.1, memory, e.2)) ↔
      (sys memory).Always ok c sched := by
  induction sched generalizing c with
  | nil => exact Iff.rfl
  | cons e sched ih => exact and_congr_right fun _ => ih

/-- A run of good turns begins with one. -/
theorem Always.take {ok : Turns τ σ S L → τ → Bytes → Prop} {c : Turns τ σ S L} {sched : List (τ × Bytes)}
    (h : sys.Always ok c sched) (n : Nat) : sys.Always ok c (sched.take n) := by
  induction sched generalizing c n with
  | nil =>
      rw [List.take_nil]
      trivial
  | cons e sched ih =>
      cases n with
      | zero => trivial
      | succ n => exact ⟨h.1, ih h.2 n⟩

/-- The last turn of a run of good turns is good where the turns before it have come to. -/
theorem Always.last {ok : Turns τ σ S L → τ → Bytes → Prop} {c : Turns τ σ S L} {sched : List (τ × Bytes)}
    {i : τ} {input : Bytes} (h : sys.Always ok c (sched ++ [(i, input)])) : ok (sys.turns c sched) i input := by
  induction sched generalizing c with
  | nil => exact h.1
  | cons e sched ih => exact ih h.2

/-- **The invariant rule**, where the rounds find a memory of their own. -/
theorem turnsWith_invariant {ε : Type} {sys : ε → System τ σ S L} {inv : Turns τ σ S L → Prop}
    {ok : Turns τ σ S L → τ → ε → Bytes → Prop}
    (hstep : ∀ c i memory input, inv c → ok c i memory input → inv ((sys memory).turn c i input)) {c : Turns τ σ S L}
    (hc : inv c) {sched : List (τ × ε × Bytes)} (h : AlwaysWith sys ok c sched) : inv (turnsWith sys c sched) := by
  induction sched generalizing c with
  | nil => exact hc
  | cons e sched ih => exact ih (hstep c e.1 e.2.1 e.2.2 hc h.1) h.2

/-- **The invariant rule.** -/
theorem turns_invariant {inv : Turns τ σ S L → Prop} {ok : Turns τ σ S L → τ → Bytes → Prop}
    (hstep : ∀ c i input, inv c → ok c i input → inv (sys.turn c i input)) {c : Turns τ σ S L} (hc : inv c)
    {sched : List (τ × Bytes)} (h : sys.Always ok c sched) : inv (sys.turns c sched) := by
  have hsame := turnsWith_eq_turns (fun _ : Unit => sys) () c sched
  rw [← hsame]
  exact turnsWith_invariant (fun c i _ input => hstep c i input) hc ((alwaysWith_same (fun _ => sys) ()).mpr h)

/-- What the turns of a run do, by an invariant. -/
theorem Always.imp_of_invariant {inv : Turns τ σ S L → Prop} {ok ok' : Turns τ σ S L → τ → Bytes → Prop}
    (hstep : ∀ c i input, inv c → ok c i input → inv (sys.turn c i input))
    (himp : ∀ c i input, inv c → ok c i input → ok' c i input) {c : Turns τ σ S L} (hc : inv c)
    {sched : List (τ × Bytes)} (h : sys.Always ok c sched) : sys.Always ok' c sched := by
  induction sched generalizing c with
  | nil => trivial
  | cons e sched ih => exact ⟨himp c e.1 e.2 hc h.1, ih (hstep c e.1 e.2 hc h.1) h.2⟩

theorem always_congr {ok ok' : Turns τ σ S L → τ → Bytes → Prop} (h : ∀ c i input, ok c i input ↔ ok' c i input)
    (c : Turns τ σ S L) (sched : List (τ × Bytes)) : sys.Always ok c sched ↔ sys.Always ok' c sched := by
  induction sched generalizing c with
  | nil => exact Iff.rfl
  | cons e sched ih => exact and_congr (h c e.1 e.2) (ih _)

section Turn

variable {c : Turns τ σ S L} {i : τ} {input : Bytes}

/-- A thread that has no turn does nothing. -/
theorem turn_of_not (h : ¬ (c.ended = false ∧ sys.started i c.state = true)) : sys.turn c i input = c := if_neg h

/-- A turn that goes on. -/
theorem turn_some (h : c.ended = false ∧ sys.started i c.state = true) {l' : L}
    (hresult : ((sys.body i (c.locals i)).run input c.state).result = some l') : sys.turn c i input =
      { state := ((sys.body i (c.locals i)).run input c.state).state
        locals := Function.update c.locals i l'
        sent := c.sent ++ (sys.body i (c.locals i)).sent input c.state } := by
  unfold System.turn
  rw [if_pos h]
  dsimp only
  rw [hresult]
  rfl

/-- A turn that ends the process. -/
theorem turn_none (h : c.ended = false ∧ sys.started i c.state = true)
    (hresult : ((sys.body i (c.locals i)).run input c.state).result = none) :
    (sys.turn c i input).ended = true := by
  unfold System.turn
  rw [if_pos h]
  exact congrArg Option.isNone hresult

/-- What a thread that has a turn does to the state, and what it sends. -/
theorem turn_does (input : Bytes) (h : c.ended = false ∧ sys.started i c.state = true) :
    (sys.turn c i input).state = ((sys.body i (c.locals i)).run input c.state).state ∧
      (sys.turn c i input).sent = c.sent ++ (sys.body i (c.locals i)).sent input c.state := by
  unfold System.turn
  rw [if_pos h]
  exact ⟨rfl, rfl⟩

end Turn

/-- The two cases of a turn. -/
theorem turn_cases (c : Turns τ σ S L) (i : τ) (input : Bytes) : sys.turn c i input = c ∨
    (sys.turn c i input).state = ((sys.body i (c.locals i)).run input c.state).state ∧
      (sys.turn c i input).sent = c.sent ++ (sys.body i (c.locals i)).sent input c.state := by
  by_cases h : c.ended = false ∧ sys.started i c.state = true
  · exact Or.inr (turn_does input h)
  · exact Or.inl (turn_of_not h)

/-- A run with one turn more. -/
theorem turns_take_succ (sys : System τ σ S L) (c : Turns τ σ S L) {sched : List (τ × Bytes)} {k : Nat}
    (hk : k < sched.length) : sys.turns c (sched.take (k + 1)) =
      sys.turn (sys.turns c (sched.take k)) sched[k].1 sched[k].2 := by
  unfold System.turns
  rw [List.take_succ_eq_append_getElem hk, List.foldl_append]
  rfl

end Turns

end Wire
