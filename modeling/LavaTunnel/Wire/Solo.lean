import LavaTunnel.Wire.Framed

/-!
# `Wire.Solo` — one thread of a run

What a thread does in a run depends on the other threads only by what they have made of the state before each of its
rounds. `Solo` is a thread on its own: before each round a function is applied to the state, and the round has an
input. `interference` reads both off a run, and `turns_solo` says that the thread in the run is the one on its own.
-/

namespace Wire

/-- A thread on its own: where it stands, the state it leaves behind, and what it has sent. -/
structure Solo (σ S L : Type) where
  locals : L
  state : σ
  sent : List (S × Bytes) := []
  ended : Bool := false

section Solo

variable {τ σ S L : Type} [DecidableEq τ]

/-- A round, after the others have changed the state. -/
def Solo.round (body : L → Prog σ S L) (s : Solo σ S L) (e : (σ → σ) × Bytes) : Solo σ S L :=
  if s.ended then s
  else
    let o := (body s.locals).run e.2 (e.1 s.state)
    { locals := o.result.getD s.locals
      state := o.state
      sent := s.sent ++ (body s.locals).sent e.2 (e.1 s.state)
      ended := o.result.isNone }

/-- Some rounds. -/
def Solo.rounds (body : L → Prog σ S L) (s : Solo σ S L) (es : List ((σ → σ) × Bytes)) : Solo σ S L :=
  es.foldl (Solo.round body) s

/-- A thread that has ended stays so. -/
theorem rounds_ended {body : L → Prog σ S L} {s : Solo σ S L} (h : s.ended = true) (es : List ((σ → σ) × Bytes)) :
    Solo.rounds body s es = s := by
  induction es with
  | nil => rfl
  | cons e es ih =>
      have hround : Solo.round body s e = s := if_pos h
      show Solo.rounds body (Solo.round body s e) es = s
      rw [hround]
      exact ih

/-- What a turn makes of the state. -/
def System.effect (sys : System τ σ S L) (c : Turns τ σ S L) (i : τ) (input : Bytes) (t : σ) : σ :=
  if c.ended = false ∧ sys.started i t = true then ((sys.body i (c.locals i)).run input t).state else t

/-- The rounds of thread `i` in a run, each with what the others have made of the state since the last one, and what
    they have made of it since the last one of all. `f` is what they have made of it so far. -/
def System.interference (sys : System τ σ S L) (i : τ) :
    Turns τ σ S L → (σ → σ) → List (τ × Bytes) → List ((σ → σ) × Bytes) × (σ → σ)
  | _, f, [] => ([], f)
  | c, f, e :: sched =>
      if e.1 = i ∧ c.ended = false ∧ sys.started i c.state = true then
        ((f, e.2) :: (sys.interference i (sys.turn c e.1 e.2) id sched).1,
          (sys.interference i (sys.turn c e.1 e.2) id sched).2)
      else sys.interference i (sys.turn c e.1 e.2) (if e.1 = i then f else sys.effect c e.1 e.2 ∘ f) sched

/-- What thread `i` sends in a turn. -/
def System.sends (sys : System τ σ S L) (i : τ) (c : Turns τ σ S L) (j : τ) (input : Bytes) : List (S × Bytes) :=
  if j = i ∧ c.ended = false ∧ sys.started i c.state = true then (sys.body i (c.locals i)).sent input c.state else []

variable {sys : System τ σ S L}

/-- A turn makes of the state what its effect is. -/
theorem turn_effect (c : Turns τ σ S L) (i : τ) (input : Bytes) :
    (sys.turn c i input).state = sys.effect c i input c.state := by
  unfold System.effect
  by_cases hturn : c.ended = false ∧ sys.started i c.state = true
  · rw [if_pos hturn]
    exact (turn_does input hturn).1
  · rw [if_neg hturn, turn_of_not hturn]

section Interference

variable {i j : τ} {c : Turns τ σ S L} {input : Bytes}

theorem interference_round (h : c.ended = false ∧ sys.started i c.state = true) (f : σ → σ) (sched : List (τ × Bytes)) :
    sys.interference i c f ((i, input) :: sched) =
      ((f, input) :: (sys.interference i (sys.turn c i input) id sched).1,
        (sys.interference i (sys.turn c i input) id sched).2) := if_pos ⟨rfl, h⟩

theorem interference_other (h : ¬ (j = i ∧ c.ended = false ∧ sys.started i c.state = true)) (f : σ → σ)
    (sched : List (τ × Bytes)) : sys.interference i c f ((j, input) :: sched) =
      sys.interference i (sys.turn c j input) (if j = i then f else sys.effect c j input ∘ f) sched := if_neg h

end Interference

/-- What is asked of the turns of the other threads holds of what they make of the state between two rounds. -/
theorem interference_forall {K : (σ → σ) → Prop} (hid : K id) (hcomp : ∀ {f g}, K f → K g → K (g ∘ f)) {i : τ}
    {c : Turns τ σ S L} {sched : List (τ × Bytes)}
    (hrely : sys.Always (fun c j input => j ≠ i → K (sys.effect c j input)) c sched) {f : σ → σ} (hf : K f) :
    ∀ e ∈ (sys.interference i c f sched).1, K e.1 := by
  induction sched generalizing c f with
  | nil => exact fun e he => absurd he List.not_mem_nil
  | cons e sched ih =>
      obtain ⟨j, input⟩ := e
      by_cases hround : j = i ∧ c.ended = false ∧ sys.started i c.state = true
      · obtain ⟨rfl, hturn⟩ := hround
        rw [interference_round hturn]
        intro e he
        rcases List.mem_cons.mp he with rfl | he
        · exact hf
        · exact ih hrely.2 hid e he
      · rw [interference_other hround]
        refine ih hrely.2 ?_
        by_cases hj : j = i
        · rw [if_pos hj]
          exact hf
        · rw [if_neg hj]
          exact hcomp hf (hrely.1 hj)

/-- **One thread of a run is the thread on its own**, among what the others make of the state. -/
theorem turns_solo {i : τ} {c : Turns τ σ S L} {s : Solo σ S L} {f : σ → σ} (hlocals : c.locals i = s.locals)
    (hstate : c.state = f s.state) (hended : s.ended = true → c.ended = true) (sched : List (τ × Bytes)) :
    let r := sys.interference i c f sched
    let s' := Solo.rounds (sys.body i) s r.1
    (sys.turns c sched).locals i = s'.locals ∧ (sys.turns c sched).state = r.2 s'.state ∧
      s'.sent = s.sent ++ sys.along (sys.sends i) c sched ∧ (s'.ended = true → (sys.turns c sched).ended = true) := by
  induction sched generalizing c s f with
  | nil => exact ⟨hlocals, hstate, (List.append_nil _).symm, hended⟩
  | cons e sched ih =>
      obtain ⟨j, input⟩ := e
      by_cases hround : j = i ∧ c.ended = false ∧ sys.started i c.state = true
      · -- a round of the thread
        obtain ⟨rfl, hturn⟩ := hround
        have hgoes : s.ended = false := by
          cases hs : s.ended with
          | false => rfl
          | true => exact absurd ((hended hs).symm.trans hturn.1) (by decide)
        have hnext : Solo.round (sys.body j) s (f, input) =
            { locals := ((sys.body j s.locals).run input (f s.state)).result.getD s.locals
              state := ((sys.body j s.locals).run input (f s.state)).state
              sent := s.sent ++ (sys.body j s.locals).sent input (f s.state)
              ended := ((sys.body j s.locals).run input (f s.state)).result.isNone } := by
          unfold Solo.round
          rw [hgoes]
          rfl
        have hself : (sys.turn c j input).locals j = _ := turn_locals_self input hturn
        have hdoes : (sys.turn c j input).state = _ := (turn_does input hturn).1
        have hends : (sys.turn c j input).ended = _ := turn_ended input hturn
        have hsends : sys.sends j c j input = _ := if_pos ⟨rfl, hturn⟩
        rw [hlocals, hstate] at hself hdoes hends hsends
        obtain ⟨hl, ht, hsent, hend⟩ := ih (s := Solo.round (sys.body j) s (f, input)) (by rw [hnext]; exact hself)
          (f := id) (by rw [hnext]; exact hdoes) (by rw [hnext, hends]; exact fun h => h)
        rw [interference_round hturn]
        refine ⟨hl, ht, hsent.trans ?_, hend⟩
        rw [hnext, System.along, hsends, List.append_assoc]
      · -- a turn of another thread, or one that nobody takes
        have hsame : j = i → sys.turn c j input = c := by
          rintro rfl
          exact turn_of_not fun hturn => hround ⟨rfl, hturn⟩
        have hl : (sys.turn c j input).locals i = s.locals := by
          by_cases hj : j = i
          · rw [hsame hj]
            exact hlocals
          · rw [turn_locals_ne (Ne.symm hj)]
            exact hlocals
        have ht : (sys.turn c j input).state = (if j = i then f else sys.effect c j input ∘ f) s.state := by
          by_cases hj : j = i
          · rw [if_pos hj, hsame hj]
            exact hstate
          · rw [if_neg hj, turn_effect, hstate]
            rfl
        have hends : s.ended = true → (sys.turn c j input).ended = true := by
          intro hs
          rw [turn_of_not fun hturn => absurd ((hended hs).symm.trans hturn.1) (by decide)]
          exact hended hs
        have hsends : sys.sends i c j input = [] := if_neg hround
        rw [interference_other hround, System.along, hsends, List.nil_append]
        exact ih hl ht hends

end Solo

end Wire
