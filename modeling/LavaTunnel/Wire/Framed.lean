import LavaTunnel.Wire.Turns

/-!
# `Wire.Framed` — what a program may do to the state, and what the turns of a run add up to

`Framed R blur P` is `Tame` with a relation in place of what is kept: each update of the program is in `R`, which
may also say that something can be switched off but not on. One pass over the code gives what the code may do, what
it does not depend on, and what it writes.

The second part is about runs of threads that take turns:

* `turns_fold` — what is kept in a run is what its turns make of it, one after the other;
* `turns_pay` — a potential: what the turns cost is paid by what the potential was and by what came in;
* `turnsWith_sent` — what is sent in a run is what its turns send, under an invariant;
* `turns_alike` — two runs whose turns are blind to what differs, in the state or in the inputs, send the same.
-/

namespace Wire

namespace Prog

variable {σ S T α β : Type}

/-- Every update is in `R`, nothing depends on what `blur` removes, and every packet is in `P`. -/
def Framed (R : σ → σ → Prop) (blur : σ → σ) (P : S → Bytes → Prop) : Prog σ S α → Prop
  | ret _ => True
  | recv _ k => ∀ r, (k r).Framed R blur P
  | emit s cs k => P s (cs.flatMap Call.bytes) ∧ k.Framed R blur P
  | get k => ∀ t, k (blur t) = k t ∧ (k t).Framed R blur P
  | modify f k => (∀ t, R t (f t) ∧ blur (f (blur t)) = blur (f t)) ∧ k.Framed R blur P
  | exit => True

section Closure

variable {R Q : σ → σ → Prop} {blur : σ → σ} {P P' : S → Bytes → Prop}

theorem Framed.bind {p : Prog σ S α} {f : α → Prog σ S β} (hp : p.Framed R blur P)
    (hf : ∀ a, (f a).Framed R blur P) : (p >>= f).Framed R blur P := by
  rw [bind_eq]
  induction p with
  | ret a => exact hf a
  | recv n k ih => exact fun r => ih r (hp r)
  | emit s cs k ih => exact ⟨hp.1, ih hp.2⟩
  | get k ih => exact fun t => ⟨congrArg (fun q => q.bind f) (hp t).1, ih t (hp t).2⟩
  | modify g k ih => exact ⟨hp.1, ih hp.2⟩
  | exit => trivial

theorem Framed.pure (a : α) : (Pure.pure a : Prog σ S α).Framed R blur P := trivial

theorem Framed.exit : (Prog.exit : Prog σ S α).Framed R blur P := trivial

theorem Framed.packet {s : S} {cs : List Call} (h : P s (cs.flatMap Call.bytes)) :
    (Prog.packet s cs : Prog σ S Unit).Framed R blur P := ⟨h, trivial⟩

theorem Framed.update {f : σ → σ} (hR : ∀ t, R t (f t)) (hblur : ∀ t, blur (f (blur t)) = blur (f t)) :
    (Prog.update f : Prog σ S Unit).Framed R blur P :=
  ⟨fun t => ⟨hR t, hblur t⟩, trivial⟩

theorem Framed.getState_bind {f : σ → Prog σ S β} (hblur : ∀ t, f (blur t) = f t)
    (h : ∀ t, (f t).Framed R blur P) : (getState >>= f).Framed R blur P :=
  fun t => ⟨hblur t, h t⟩

theorem Framed.ite {c : Prop} [Decidable c] {p q : Prog σ S α} (hp : p.Framed R blur P)
    (hq : q.Framed R blur P) : (if c then p else q).Framed R blur P := by
  by_cases hc : c
  · rw [if_pos hc]
    exact hp
  · rw [if_neg hc]
    exact hq

theorem Framed.onlyIf {c : Prop} [Decidable c] {p : Prog σ S Unit} (h : p.Framed R blur P) :
    (Prog.onlyIf c p).Framed R blur P := Framed.ite h (Framed.pure ())

theorem Framed.forEach {body : β → Prog σ S Unit} (h : ∀ b, (body b).Framed R blur P) (bs : List β) :
    (Prog.forEach body bs).Framed R blur P := by
  induction bs with
  | nil => exact Framed.pure ()
  | cons b bs ih => exact Framed.bind (h b) (fun _ => ih)

/-- Less may be asked. -/
theorem Framed.mono (hR : ∀ t t', R t t' → Q t t') (hP : ∀ s bs, P s bs → P' s bs) {p : Prog σ S α}
    (h : p.Framed R blur P) : p.Framed Q blur P' := by
  induction p with
  | ret a => trivial
  | recv n k ih => exact fun r => ih r (h r)
  | emit s cs k ih => exact ⟨hP s _ h.1, ih h.2⟩
  | get k ih => exact fun t => ⟨(h t).1, ih t (h t).2⟩
  | modify f k ih => exact ⟨fun t => ⟨hR t _ (h.1 t).1, (h.1 t).2⟩, ih h.2⟩
  | exit => trivial

/-- What is said of the code without what it does not depend on. -/
theorem Framed.unblur {p : Prog σ S α} (h : p.Framed R blur P) : p.Framed R id P := by
  induction p with
  | ret a => trivial
  | recv n k ih => exact fun r => ih r (h r)
  | emit s cs k ih => exact ⟨h.1, ih h.2⟩
  | get k ih => exact fun t => ⟨rfl, ih t (h t).2⟩
  | modify f k ih => exact ⟨fun t => ⟨(h.1 t).1, rfl⟩, ih h.2⟩
  | exit => trivial

/-- Where nothing is asked. -/
theorem Framed.any (p : Prog σ S α) : p.Framed (fun _ _ => True) id (fun _ _ => True) := by
  induction p with
  | ret a => trivial
  | recv n k ih => exact fun r => ih r
  | emit s cs k ih => exact ⟨trivial, ih⟩
  | get k ih => exact fun t => ⟨rfl, ih t⟩
  | modify f k ih => exact ⟨fun _ => ⟨trivial, rfl⟩, ih⟩
  | exit => trivial

/-- Code that changes nothing is in every frame. -/
theorem Tame.framed (hrefl : ∀ t, R t t) {p : Prog σ S α} (h : p.Tame id blur P) : p.Framed R blur P := by
  induction p with
  | ret a => trivial
  | recv n k ih => exact fun r => ih r (h r)
  | emit s cs k ih => exact ⟨h.1, ih h.2⟩
  | get k ih => exact fun t => ⟨(h t).1, ih t (h t).2⟩
  | modify f k ih =>
      refine ⟨fun t => ⟨?_, (h.1 t).2⟩, ih h.2⟩
      rw [show f t = t from (h.1 t).1]
      exact hrefl t
  | exit => trivial

theorem Framed.tame {p : Prog σ S α} (h : p.Framed R blur P) : p.Tame (fun _ => ()) blur P := by
  induction p with
  | ret a => trivial
  | recv n k ih => exact fun r => ih r (h r)
  | emit s cs k ih => exact ⟨h.1, ih h.2⟩
  | get k ih => exact fun t => ⟨(h t).1, ih t (h t).2⟩
  | modify f k ih => exact ⟨fun t => ⟨rfl, (h.1 t).2⟩, ih h.2⟩
  | exit => trivial

/-- **A run stays in the frame.** -/
theorem Framed.run [Transport T] (hrefl : ∀ t, R t t) (htrans : ∀ {a b c}, R a b → R b c → R a c)
    {p : Prog σ S α} (h : p.Framed R blur P) (i : T) (t : σ) : R t (p.run i t).state := by
  induction p generalizing i t with
  | ret a => exact hrefl t
  | recv n k ih => exact ih _ (h _) _ _
  | emit s cs k ih => exact ih h.2 i t
  | get k ih => exact ih t (h t).2 i t
  | modify f k ih => exact htrans (h.1 t).1 (ih h.2 i (f t))
  | exit => exact hrefl t

theorem Framed.sent [Transport T] {p : Prog σ S α} (h : p.Framed R blur P) (i : T) (t : σ) :
    ∀ e ∈ p.sent i t, P e.1 e.2 := h.tame.emits.sent i t

end Closure

/-- A program that receives nothing sends the same from any input. -/
theorem Local.sent_any {κ : Type} {kept : σ → κ} {P : S → Bytes → Prop} {p : Prog σ S α} (h : p.Local kept P)
    (i i' : Bytes) (t : σ) : p.sent i t = p.sent i' t := by
  induction p generalizing t with
  | ret a => rfl
  | recv n k ih => exact h.elim
  | emit s cs k ih => exact congrArg ((s, cs.flatMap Call.bytes) :: ·) (ih h.2 t)
  | get k ih => exact ih t (h t) t
  | modify f k ih => exact ih h.2 (f t)
  | exit => rfl

/-- What follows a program that only writes. -/
theorem Local.sent_then {P : S → Bytes → Prop} {p : Prog σ S Unit} (h : p.Local id P) (f : Unit → Prog σ S β)
    (i : Bytes) (t : σ) : (p >>= f).sent i t = p.sent i t ++ (f ()).sent i t := by
  obtain ⟨a, t', out, htakes, ht⟩ := h.takes t
  have hsame : t' = t := ht
  have hrun := htakes i
  rw [List.nil_append, hsame] at hrun
  exact sent_bind_of hrun f

/-- The calls of a run write the bytes of its packets. -/
theorem stream_sent [DecidableEq S] (s : S) (p : Prog σ S α) (i : Bytes) (t : σ) :
    stream s (p.run i t).out = stream s (p.sent i t) := by
  have hall : ∀ out : List (S × Bytes), stream s out = (sentTo s out).flatten := by
    intro out
    induction out with
    | nil => rfl
    | cons e out ih =>
        rw [stream_cons, ih]
        unfold sentTo
        by_cases he : e.1 = s
        · rw [if_pos he, List.filter_cons_of_pos (by simpa using he)]
          rfl
        · rw [if_neg he, List.filter_cons_of_neg (by simpa using he)]
          rfl
  rw [stream_run, hall]

/-! ## Two runs of a program -/

section Alike

variable {blur : σ → σ} {seen : S × Bytes → Bool}

/-- The two runs have one result, as far as it is `seen` they send the same, and the states differ at most where
    `blur` does. -/
structure Alike (blur : σ → σ) (seen : S × Bytes → Bool) (p : Prog σ S α) (i : Bytes) (t : σ) (p' : Prog σ S α)
    (i' : Bytes) (t' : σ) : Prop where
  result : (p.run i t).result = (p'.run i' t').result
  state : blur (p.run i t).state = blur (p'.run i' t').state
  sent : (p.sent i t).filter seen = (p'.sent i' t').filter seen

/-- Code that does not depend on what `blur` removes. -/
theorem Tame.alike {κ : Type} {kept : σ → κ} {P : S → Bytes → Prop} {p : Prog σ S α} (h : p.Tame kept blur P)
    (seen : S × Bytes → Bool) (i : Bytes) {t t' : σ} (ht : blur t = blur t') : p.Alike blur seen i t p i t' := by
  obtain ⟨hsame, hsent⟩ := h.run_eq i ht
  exact ⟨hsame.result, hsame.state, congrArg (List.filter seen) hsent⟩

/-- A result is passed on. -/
theorem Alike.map {p p' : Prog σ S α} {i i' : Bytes} {t t' : σ} (h : p.Alike blur seen i t p' i' t') (g : α → β) :
    (do let a ← p; Pure.pure (g a) : Prog σ S β).Alike blur seen i t (do let a ← p'; Pure.pure (g a)) i' t' := by
  constructor
  · rw [run_bind_pure, run_bind_pure]
    exact congrArg (Option.map g) h.result
  · rw [run_bind_pure, run_bind_pure]
    exact h.state
  · rw [sent_bind_pure, sent_bind_pure]
    exact h.sent

end Alike

end Prog

/-! ## What the turns of a run add up to -/

section Turns

variable {τ σ S L α : Type} [DecidableEq τ]

/-- What `g` makes of each turn of a run, in the state the turn finds. -/
def System.along (sys : System τ σ S L) (g : Turns τ σ S L → τ → Bytes → List α) :
    Turns τ σ S L → List (τ × Bytes) → List α
  | _, [] => []
  | c, e :: sched => g c e.1 e.2 ++ sys.along g (sys.turn c e.1 e.2) sched

/-- What the turns of a run cost together. -/
def System.total (sys : System τ σ S L) (cost : Turns τ σ S L → τ → Bytes → Nat) :
    Turns τ σ S L → List (τ × Bytes) → Nat
  | _, [] => 0
  | c, e :: sched => cost c e.1 e.2 + sys.total cost (sys.turn c e.1 e.2) sched

variable {sys : System τ σ S L} {inv : Turns τ σ S L → Prop} {ok : Turns τ σ S L → τ → Bytes → Prop}

/-- **The rule for what is kept.** Where good turns change a view of the moment in a way that depends on the thread and
    the input only, a run folds these changes. -/
theorem turns_fold {κ : Type} (view : Turns τ σ S L → κ) (upd : κ → τ × Bytes → κ)
    (hstep : ∀ c i input, inv c → ok c i input → inv (sys.turn c i input))
    (hview : ∀ c i input, inv c → ok c i input → view (sys.turn c i input) = upd (view c) (i, input))
    {c : Turns τ σ S L} (hc : inv c) {sched : List (τ × Bytes)} (h : sys.Always ok c sched) :
    view (sys.turns c sched) = sched.foldl upd (view c) := by
  induction sched generalizing c with
  | nil => rfl
  | cons e sched ih =>
      rw [List.foldl_cons, ← hview c e.1 e.2 hc h.1]
      exact ih (hstep c e.1 e.2 hc h.1) h.2

/-- **The rule of the potential.** Each good turn is paid by the potential it uses up and by what it brings in; then
    a run is paid by the potential it starts with and by what it brings in. -/
theorem turns_pay (potential : Turns τ σ S L → Nat) {cost income : Turns τ σ S L → τ → Bytes → Nat}
    (hstep : ∀ c i input, inv c → ok c i input → inv (sys.turn c i input))
    (hpay : ∀ c i input, inv c → ok c i input →
      cost c i input + potential (sys.turn c i input) ≤ potential c + income c i input)
    {c : Turns τ σ S L} (hc : inv c) {sched : List (τ × Bytes)} (h : sys.Always ok c sched) :
    sys.total cost c sched + potential (sys.turns c sched) ≤ potential c + sys.total income c sched := by
  induction sched generalizing c with
  | nil => exact Nat.le_of_eq (Nat.add_comm _ _)
  | cons e sched ih =>
      have hfirst := hpay c e.1 e.2 hc h.1
      have hrest := ih (hstep c e.1 e.2 hc h.1) h.2
      show cost c e.1 e.2 + sys.total cost (sys.turn c e.1 e.2) sched +
        potential (sys.turns (sys.turn c e.1 e.2) sched) ≤
          potential c + (income c e.1 e.2 + sys.total income (sys.turn c e.1 e.2) sched)
      omega

/-- A turn leaves the locals of the other threads alone. -/
theorem turn_locals_ne {c : Turns τ σ S L} {i j : τ} (h : j ≠ i) (input : Bytes) :
    (sys.turn c i input).locals j = c.locals j := by
  by_cases hturn : c.ended = false ∧ sys.started i c.state = true
  · unfold System.turn
    rw [if_pos hturn]
    exact Function.update_of_ne h _ _
  · rw [turn_of_not hturn]

/-- The thread that has the turn gets its result, if there is one. -/
theorem turn_locals_self {c : Turns τ σ S L} {i : τ} (input : Bytes)
    (hturn : c.ended = false ∧ sys.started i c.state = true) :
    (sys.turn c i input).locals i = ((sys.body i (c.locals i)).run input c.state).result.getD (c.locals i) := by
  unfold System.turn
  rw [if_pos hturn]
  exact Function.update_self _ _ _

/-- The process ends with a thread that has no result. -/
theorem turn_ended {c : Turns τ σ S L} {i : τ} (input : Bytes)
    (hturn : c.ended = false ∧ sys.started i c.state = true) :
    (sys.turn c i input).ended = ((sys.body i (c.locals i)).run input c.state).result.isNone := by
  unfold System.turn
  rw [if_pos hturn]

/-! ## Rounds that find a memory of their own -/

section With

variable {ε : Type} {sys : ε → System τ σ S L} {inv : Turns τ σ S L → Prop}
  {ok ok' : Turns τ σ S L → τ → ε → Bytes → Prop}

/-- **The rule for what is sent.** What good turns add to a view of the packets, a run adds turn by turn. -/
theorem turnsWith_sent {view : List (S × Bytes) → List α} {g : τ × ε × Bytes → List α}
    (hstep : ∀ c i memory input, inv c → ok c i memory input → inv ((sys memory).turn c i input))
    (hsent : ∀ c i memory input, inv c → ok c i memory input →
      view ((sys memory).turn c i input).sent = view c.sent ++ g (i, memory, input))
    {c : Turns τ σ S L} (hc : inv c) {sched : List (τ × ε × Bytes)} (h : AlwaysWith sys ok c sched) :
    view (turnsWith sys c sched).sent = view c.sent ++ sched.flatMap g := by
  induction sched generalizing c with
  | nil => exact (List.append_nil _).symm
  | cons e sched ih =>
      show view (turnsWith sys ((sys e.2.1).turn c e.1 e.2.2) sched).sent = _
      rw [ih (hstep c e.1 e.2.1 e.2.2 hc h.1) h.2, hsent c e.1 e.2.1 e.2.2 hc h.1, List.append_assoc]
      rfl

/-- **The rule of the history.** A relation of the moment to what the turns have added up to, kept by every turn. -/
theorem turnsWith_collect {P : List α → Turns τ σ S L → Prop} {g : τ × ε × Bytes → List α}
    (hstep : ∀ acc c i memory input, P acc c → P (acc ++ g (i, memory, input)) ((sys memory).turn c i input))
    {acc : List α} {c : Turns τ σ S L} (hc : P acc c) (sched : List (τ × ε × Bytes)) :
    P (acc ++ sched.flatMap g) (turnsWith sys c sched) := by
  induction sched generalizing acc c with
  | nil => exact (List.append_nil acc).symm ▸ hc
  | cons e sched ih =>
      have hrest : P (acc ++ g e ++ sched.flatMap g) (turnsWith sys ((sys e.2.1).turn c e.1 e.2.2) sched) :=
        ih (hstep acc c e.1 e.2.1 e.2.2 hc)
      rw [List.append_assoc] at hrest
      exact hrest

/-- Where nothing is asked of the turns. -/
theorem alwaysWith_true (c : Turns τ σ S L) (sched : List (τ × ε × Bytes)) :
    AlwaysWith sys (fun _ _ _ _ => True) c sched := by
  induction sched generalizing c with
  | nil => trivial
  | cons e sched ih => exact ⟨trivial, ih _⟩

/-- An end is for good. -/
theorem turnsWith_ended {c : Turns τ σ S L} (hc : c.ended = true) (sched : List (τ × ε × Bytes)) :
    (turnsWith sys c sched).ended = true := by
  induction sched generalizing c with
  | nil => exact hc
  | cons e sched ih =>
      refine ih (c := (sys e.2.1).turn c e.1 e.2.2) ?_
      rw [turn_of_not (fun hturn => absurd (hc.symm.trans hturn.1) (by decide))]
      exact hc

/-- Where the process is still running in the end, it was running all along. -/
theorem alwaysWith_running {c : Turns τ σ S L} {sched : List (τ × ε × Bytes)}
    (h : (turnsWith sys c sched).ended = false) : AlwaysWith sys (fun c _ _ _ => c.ended = false) c sched := by
  induction sched generalizing c with
  | nil => trivial
  | cons e sched ih =>
      refine ⟨?_, ih h⟩
      cases hc : c.ended with
      | false => exact hc
      | true => exact absurd ((turnsWith_ended hc (e :: sched)).symm.trans h) (by decide)

/-- Turns that are good in two ways. -/
theorem AlwaysWith.and {c : Turns τ σ S L} {sched : List (τ × ε × Bytes)} (h : AlwaysWith sys ok c sched)
    (h' : AlwaysWith sys ok' c sched) :
    AlwaysWith sys (fun c i memory input => ok c i memory input ∧ ok' c i memory input) c sched := by
  induction sched generalizing c with
  | nil => trivial
  | cons e sched ih => exact ⟨⟨h.1, h'.1⟩, ih h.2 h'.2⟩

end With

section Same

variable {ok' : Turns τ σ S L → τ → Bytes → Prop} {c : Turns τ σ S L} {sched : List (τ × Bytes)}

theorem always_true (c : Turns τ σ S L) (sched : List (τ × Bytes)) : sys.Always (fun _ _ _ => True) c sched :=
  (alwaysWith_same (fun _ : Unit => sys) ()).mp (alwaysWith_true c _)

theorem always_running (h : (sys.turns c sched).ended = false) : sys.Always (fun c _ _ => c.ended = false) c sched := by
  have hsame := turnsWith_eq_turns (fun _ : Unit => sys) () c sched
  rw [← hsame] at h
  exact (alwaysWith_same (fun _ => sys) ()).mp (alwaysWith_running h)

theorem Always.and (h : sys.Always ok c sched) (h' : sys.Always ok' c sched) :
    sys.Always (fun c i input => ok c i input ∧ ok' c i input) c sched := by
  have hsame : ∀ {ok : Turns τ σ S L → τ → Bytes → Prop}, AlwaysWith (fun _ : Unit => sys)
      (fun c i _ input => ok c i input) c (sched.map fun e => (e.1, (), e.2)) ↔ sys.Always ok c sched :=
    alwaysWith_same (fun _ => sys) ()
  exact hsame.mp (AlwaysWith.and (hsame.mpr h) (hsame.mpr h'))

end Same

/-! ## Two runs of the same threads -/

/-- Two moments that look the same, with states that differ at most where `blur` does. -/
structure AlikeTurns (blur : σ → σ) (seen : S × Bytes → Bool) (c c' : Turns τ σ S L) : Prop where
  state : blur c.state = blur c'.state
  locals : c.locals = c'.locals
  sent : c.sent.filter seen = c'.sent.filter seen
  ended : c.ended = c'.ended

/-- The first of two runs: each turn has two memories and two inputs. -/
def firsts {X : Type} (sched : List (τ × X × X)) : List (τ × X) := sched.map (fun e => (e.1, e.2.1))

/-- The second run. -/
def seconds {X : Type} (sched : List (τ × X × X)) : List (τ × X) := sched.map (fun e => (e.1, e.2.2))

variable {ε : Type} {sys : ε → System τ σ S L}

/-- Two schedules, turn by turn: each pair of turns is good in the state the first run finds. -/
def InStep (sys : ε → System τ σ S L) (pair : Turns τ σ S L → τ × ε × Bytes → τ × ε × Bytes → Prop) :
    Turns τ σ S L → List (τ × ε × Bytes) → List (τ × ε × Bytes) → Prop
  | _, [], [] => True
  | c, e :: sched, e' :: sched' => pair c e e' ∧ InStep sys pair ((sys e.2.1).turn c e.1 e.2.2) sched sched'
  | _, _, _ => False

/-- **The rule of two runs.** A relation of two moments that is kept by the turns of two schedules, taken in pairs. -/
theorem turns_pairwise {R : Turns τ σ S L → Turns τ σ S L → Prop}
    {pair : Turns τ σ S L → τ × ε × Bytes → τ × ε × Bytes → Prop}
    (hstep : ∀ c c' e e', R c c' → pair c e e' → R ((sys e.2.1).turn c e.1 e.2.2) ((sys e'.2.1).turn c' e'.1 e'.2.2))
    {c c' : Turns τ σ S L} (hc : R c c') {sched sched' : List (τ × ε × Bytes)} (h : InStep sys pair c sched sched') :
    R (turnsWith sys c sched) (turnsWith sys c' sched') := by
  induction sched generalizing c c' sched' with
  | nil =>
      cases sched' with
      | nil => exact hc
      | cons e' sched' => exact h.elim
  | cons e sched ih =>
      cases sched' with
      | nil => exact h.elim
      | cons e' sched' => exact ih (hstep c c' e e' hc h.1) h.2

/-- Every turn of the two runs is good in the state the first one finds. -/
def Together (sys : ε → System τ σ S L) (good : Turns τ σ S L → τ → ε × Bytes → ε × Bytes → Prop) :
    Turns τ σ S L → List (τ × (ε × Bytes) × ε × Bytes) → Prop
  | _, [] => True
  | c, e :: sched => good c e.1 e.2.1 e.2.2 ∧ Together sys good ((sys e.2.1.1).turn c e.1 e.2.1.2) sched

theorem Together.imp {good good' : Turns τ σ S L → τ → ε × Bytes → ε × Bytes → Prop}
    (himp : ∀ c i x x', good c i x x' → good' c i x x') {c : Turns τ σ S L}
    {sched : List (τ × (ε × Bytes) × ε × Bytes)} (h : Together sys good c sched) : Together sys good' c sched := by
  induction sched generalizing c with
  | nil => trivial
  | cons e sched ih => exact ⟨himp c e.1 e.2.1 e.2.2 h.1, ih h.2⟩

theorem Together.and {good good' : Turns τ σ S L → τ → ε × Bytes → ε × Bytes → Prop} {c : Turns τ σ S L}
    {sched : List (τ × (ε × Bytes) × ε × Bytes)} (h : Together sys good c sched) (h' : Together sys good' c sched) :
    Together sys (fun c i x x' => good c i x x' ∧ good' c i x x') c sched := by
  induction sched generalizing c with
  | nil => trivial
  | cons e sched ih => exact ⟨⟨h.1, h'.1⟩, ih h.2 h'.2⟩

/-- The other memory and input do the same, also from another state that differs at most where `blur` does. -/
def BlindTurn (sys : ε → System τ σ S L) (blur : σ → σ) (seen : S × Bytes → Bool) (c : Turns τ σ S L) (i : τ)
    (x x' : ε × Bytes) : Prop :=
  ∀ t', blur c.state = blur t' →
    ((sys x.1).body i (c.locals i)).Alike blur seen x.2 c.state ((sys x'.1).body i (c.locals i)) x'.2 t'

section Noninterference

variable {blur : σ → σ} {seen : S × Bytes → Bool} {c c' : Turns τ σ S L}
  (hstarted : ∀ e e' i t t', blur t = blur t' → (sys e).started i t = (sys e').started i t')
include hstarted

/-- A blind turn keeps two moments alike. -/
theorem alike_turn (h : AlikeTurns blur seen c c') {i : τ} {x x' : ε × Bytes}
    (hblind : BlindTurn sys blur seen c i x x') :
    AlikeTurns blur seen ((sys x.1).turn c i x.2) ((sys x'.1).turn c' i x'.2) := by
  have hgo : (c.ended = false ∧ (sys x.1).started i c.state = true) ↔
      (c'.ended = false ∧ (sys x'.1).started i c'.state = true) := by
    rw [h.ended, hstarted x.1 x'.1 i _ _ h.state]
  by_cases hturn : c.ended = false ∧ (sys x.1).started i c.state = true
  · obtain ⟨hresult, hstate, hsent⟩ := hblind c'.state h.state
    unfold System.turn
    rw [if_pos hturn, if_pos (hgo.mp hturn), ← h.locals]
    refine ⟨hstate, ?_, ?_, ?_⟩
    · show Function.update c.locals i _ = Function.update c.locals i _
      rw [hresult]
    · show (c.sent ++ _).filter seen = (c'.sent ++ _).filter seen
      rw [List.filter_append, List.filter_append, h.sent, hsent]
    · exact congrArg Option.isNone hresult
  · rw [turn_of_not hturn, turn_of_not (fun hturn' => hturn (hgo.mpr hturn'))]
    exact h

/-- **Noninterference of runs.** Blind turns keep two moments alike. -/
theorem turns_alike {good : Turns τ σ S L → τ → ε × Bytes → ε × Bytes → Prop}
    (hblind : ∀ c i x x', good c i x x' → BlindTurn sys blur seen c i x x') (h : AlikeTurns blur seen c c')
    {sched : List (τ × (ε × Bytes) × ε × Bytes)} (hgood : Together sys good c sched) :
    AlikeTurns blur seen (turnsWith sys c (firsts sched)) (turnsWith sys c' (seconds sched)) := by
  induction sched generalizing c c' with
  | nil => exact h
  | cons e sched ih => exact ih (alike_turn hstarted h (hblind c e.1 e.2.1 e.2.2 hgood.1)) hgood.2

end Noninterference

end Turns

end Wire
