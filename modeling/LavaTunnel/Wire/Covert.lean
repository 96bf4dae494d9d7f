import LavaTunnel.Wire.Tame

/-!
# `Wire.Covert` — two runs that differ in what is hidden

Two runs of the threads under the same schedule, whose `recv`s are answered alike but for some data of the same
length. A thread that has received such data may test whether it is to be hidden, and if it is, the data goes
into a part of the state that nobody reads. Then nothing of it is ever written, unless it has stayed in the memory
and is taken for something else later.

* `play` — a run whose rounds find a memory of their own;
* `Twins`, `Near` — two programs that differ in the data they have received or find in the memory, write nothing
  before they are the same again, and differ in nothing that is read as long as the data is hidden;
* `Covertly` — two runs whose answers differ only while a program is in `secret`, and where such data is hidden when
  it is tested;
* `Unexposed` — what is left of it in the memory is hidden as well when it is tested;
* `covert_alike` — such runs write the same.
-/

namespace Wire

namespace Prog

variable {σ S α β : Type}

/-- The program is about to read the state. -/
def tests : Prog σ S α → Bool
  | get _ => true
  | _ => false

/-- Two programs that end alike, whatever of the same length they receive and whatever they find while `hidden`. -/
def Twins (blur : σ → σ) (hidden : σ → Prop) : Prog σ S α → Prog σ S α → Prop
  | ret a, ret a' => a = a'
  | recv n k, recv n' k' =>
      n = n' ∧ ∀ r r' : Option Bytes, r.map List.length = r'.map List.length → Twins blur hidden (k r) (k' r')
  | get k, get k' => ∀ t t', blur t = blur t' → hidden t → Twins blur hidden (k t) (k' t')
  | modify f k, modify f' k' => (∀ t, blur (f t) = blur t ∧ blur (f' t) = blur t) ∧ Twins blur hidden k k'
  | _, _ => False

/-- Two programs that receive the same, and are then the same, or twins, or go on like this. -/
def Near (blur : σ → σ) (hidden : σ → Prop) : Prog σ S α → Prog σ S α → Prop
  | recv n k, recv n' k' => n = n' ∧ ∀ r, k r = k' r ∨ Twins blur hidden (k r) (k' r) ∨ Near blur hidden (k r) (k' r)
  | _, _ => False

/-- The same program, or two that differ in data. -/
def Matched (blur : σ → σ) (hidden : σ → Prop) (p p' : Prog σ S α) : Prop :=
  p = p' ∨ Twins blur hidden p p' ∨ Near blur hidden p p'

/-- What two programs may be after they have received as much as each other, and done nothing else. -/
inductive Receiving (p p' : Prog σ S α) : Prog σ S α → Prog σ S α → Prop
  | start : Receiving p p' p p'
  | recv {n n' : Nat} {k k' : Option Bytes → Prog σ S α} {r r' : Option Bytes}
      (hr : r.map List.length = r'.map List.length) (h : Receiving p p' (Prog.recv n k) (Prog.recv n' k')) :
      Receiving p p' (k r) (k' r')

variable {blur : σ → σ} {hidden : σ → Prop}

theorem Twins.recvCall_bind {n : Nat} {f f' : Option Bytes → Prog σ S β}
    (h : ∀ r r', r.map List.length = r'.map List.length → Twins blur hidden (f r) (f' r')) :
    Twins blur hidden (recvCall n >>= f) (recvCall n >>= f') := ⟨rfl, h⟩

theorem Twins.getState_bind {f f' : σ → Prog σ S β}
    (h : ∀ t t', blur t = blur t' → hidden t → Twins blur hidden (f t) (f' t')) :
    Twins blur hidden (getState >>= f) (getState >>= f') := h

theorem Twins.update_bind {g g' : σ → σ} {f f' : Unit → Prog σ S β} (hg : ∀ t, blur (g t) = blur t)
    (hg' : ∀ t, blur (g' t) = blur t) (h : Twins blur hidden (f ()) (f' ())) :
    Twins blur hidden (update g >>= f) (update g' >>= f') := ⟨fun t => ⟨hg t, hg' t⟩, h⟩

/-- Twins are still twins after they have received something. -/
theorem Receiving.twins {p p' q q' : Prog σ S α} (h : Receiving p p' q q') (hp : Twins blur hidden p p') :
    Twins blur hidden q q' := by
  induction h with
  | start => exact hp
  | recv hr _ ih => exact ih.2 _ _ hr

end Prog

section Covert

variable {ε τ σ S L κ : Type}

/-- A call of a run: the thread that makes it, what answers it if it is a `recv`, and what a round that begins with it
    finds in the memory. -/
structure CallStep (ε τ : Type) where
  memory : ε
  who : τ
  answer : Option Bytes

/-- A run whose rounds find a memory of their own. -/
def play [DecidableEq τ] [DecidableEq S] (sys : ε → System τ σ S L) (c : Config τ σ S L) (moves : List (CallStep ε τ)) :
    Config τ σ S L :=
  moves.foldl (fun c m => (sys m.memory).step c m.who m.answer) c

/-- Whether a thread has received different data since it last tested the state. -/
def heard [DecidableEq τ] (differ : τ → Bool) (c : Config τ σ S L) (m m' : CallStep ε τ) : τ → Bool :=
  Function.update differ m.who
    (decide (m.answer ≠ m'.answer) || differ m.who && !(c.thread m.who).code.tests)

/-- Two runs, call by call, each pair of calls a good one. -/
def Paired [DecidableEq τ] [DecidableEq S] (sys : ε → System τ σ S L)
    (good : (τ → Bool) → Config τ σ S L → Config τ σ S L → CallStep ε τ → CallStep ε τ → Prop) :
    (τ → Bool) → Config τ σ S L → Config τ σ S L → List (CallStep ε τ) → List (CallStep ε τ) → Prop
  | _, _, _, [], [] => True
  | differ, c, c', m :: moves, m' :: moves' =>
      good differ c c' m m' ∧
        Paired sys good (heard differ c m m') ((sys m.memory).step c m.who m.answer)
          ((sys m'.memory).step c' m'.who m'.answer) moves moves'
  | _, _, _, _, _ => False

/-- Two calls with the same memory but for `same`. Their answers differ only while the programs are in `secret`, and
    then in nothing but the data; when the data is tested, it is hidden. -/
structure Covertly (same : ε → ε → Prop) (secret : Prog σ S L → Prog σ S L → Prop) (hidden : σ → Prop)
    (differ : τ → Bool) (c c' : Config τ σ S L) (m m' : CallStep ε τ) : Prop where
  who : m.who = m'.who
  memory : same m.memory m'.memory
  answer : m.answer = m'.answer ∨
    secret (c.thread m.who).code (c'.thread m.who).code ∧ m.answer.map List.length = m'.answer.map List.length
  hidden : differ m.who = true → (c.thread m.who).code.tests = true → hidden c.state

/-- A thread that has received nothing different tests nothing different, but hidden. -/
def Unexposed (hidden : σ → Prop) (differ : τ → Bool) (c c' : Config τ σ S L) (m _m' : CallStep ε τ) : Prop :=
  differ m.who = false → (c.thread m.who).code ≠ (c'.thread m.who).code → (c.thread m.who).code.tests = true →
    hidden c.state

variable {kept : σ → κ} {blur : σ → σ} {P : S → Bytes → Prop} {hidden : σ → Prop} {same : ε → ε → Prop}
  {secret : Prog σ S L → Prog σ S L → Prop}

/-- Two tame threads at the same point. -/
structure SameThread (kept : σ → κ) (blur : σ → σ) (P : S → Bytes → Prop) (hidden : σ → Prop)
    (th th' : Thread σ S L) : Prop where
  pending : th.pending = th'.pending
  tame : th.code.Tame kept blur P
  tame' : th'.code.Tame kept blur P
  code : Prog.Matched blur hidden th.code th'.code

/-- Two configurations that nobody can tell apart. -/
structure Alike (kept : σ → κ) (blur : σ → σ) (P : S → Bytes → Prop) (hidden : σ → Prop)
    (c c' : Config τ σ S L) : Prop where
  state : blur c.state = blur c'.state
  stream : c.stream = c'.stream
  thread : ∀ i, SameThread kept blur P hidden (c.thread i) (c'.thread i)

theorem length_take_answer {r r' : Option Bytes} (h : r.map List.length = r'.map List.length) (n : Nat) :
    (r.map (·.take n)).map List.length = (r'.map (·.take n)).map List.length := by
  cases r with
  | none =>
      cases r' with
      | none => rfl
      | some bs' => exact absurd h (by simp)
  | some bs =>
      cases r' with
      | none => exact absurd h (by simp)
      | some bs' =>
          have hlen : bs.length = bs'.length := by simpa using h
          simp [hlen]

/-- Two steps that leave the same behind. -/
structure SameStep (blur : σ → σ) (hidden : σ → Prop) (a a' : Thread σ S L × σ × Option (S × Bytes)) : Prop where
  pending : a.1.pending = a'.1.pending
  code : Prog.Matched blur hidden a.1.code a'.1.code
  state : blur a.2.1 = blur a'.2.1
  out : a.2.2 = a'.2.2

/-- A call leaves tame code. -/
theorem tame_act {body : L → Prog σ S L} (hbody : ∀ l, (body l).Tame kept blur P) {th : Thread σ S L}
    (h : th.code.Tame kept blur P) (r : Option Bytes) (t : σ) : (th.act body r t).1.code.Tame kept blur P := by
  obtain ⟨code, pending⟩ := th
  cases pending with
  | some q => exact h
  | none =>
      cases code with
      | ret l => exact hbody l
      | recv n k => exact h _
      | emit s calls k =>
          cases calls with
          | nil => exact h.2
          | cons call rest => exact h.2
      | get k => exact (h t).2
      | modify f k => exact h.2
      | exit => exact h

section Act

variable {body body' : L → Prog σ S L} (hbody : ∀ l, Prog.Matched blur hidden (body l) (body' l))
include hbody

/-- The same program makes the same call. -/
theorem act_same {p : Prog σ S L} (hp : p.Tame kept blur P) (pending : Option (S × Call × List Call)) {t t' : σ}
    (ht : blur t = blur t') {r r' : Option Bytes}
    (hr : r = r' ∨ Prog.Twins blur hidden p p ∧ r.map List.length = r'.map List.length) :
    SameStep blur hidden ((Thread.mk p pending).act body r t) ((Thread.mk p pending).act body' r' t') := by
  cases pending with
  | some q => exact ⟨rfl, Or.inl rfl, ht, rfl⟩
  | none =>
      cases p with
      | ret l => exact ⟨rfl, hbody l, ht, rfl⟩
      | recv n k =>
          -- only here the answers can differ: then the code is a secret one, and its twin goes on
          rcases hr with rfl | ⟨htwins, hlen⟩
          · exact ⟨rfl, Or.inl rfl, ht, rfl⟩
          · exact ⟨rfl, Or.inr (Or.inl (htwins.2 _ _ (length_take_answer hlen n))), ht, rfl⟩
      | emit s calls k =>
          cases calls with
          | nil => exact ⟨rfl, Or.inl rfl, ht, rfl⟩
          | cons call rest => exact ⟨rfl, Or.inl rfl, ht, rfl⟩
      | get k =>
          have hk : k t = k t' := by rw [← (hp t).1, ht, (hp t').1]
          exact ⟨rfl, Or.inl hk, ht, rfl⟩
      | modify f k =>
          have hf : blur (f t) = blur (f t') := by rw [← (hp.1 t).2, ht, (hp.1 t').2]
          exact ⟨rfl, Or.inl rfl, hf, rfl⟩
      | exit => exact ⟨rfl, Or.inl rfl, ht, rfl⟩

/-- Twins write nothing, and stay twins or become the same. -/
theorem act_twins {p p' : Prog σ S L} (hp : Prog.Twins blur hidden p p') (pending : Option (S × Call × List Call))
    {t t' : σ} (ht : blur t = blur t') {r r' : Option Bytes} (hr : r.map List.length = r'.map List.length)
    (hhidden : p.tests = true → hidden t) :
    SameStep blur hidden ((Thread.mk p pending).act body r t) ((Thread.mk p' pending).act body' r' t') := by
  -- a packet that is being written goes on; otherwise the two codes start in the same way
  cases pending with
  | some q => exact ⟨rfl, Or.inr (Or.inl hp), ht, rfl⟩
  | none =>
      cases p with
      | ret l =>
          cases p' with
          | ret l' =>
              obtain rfl : l = l' := hp
              exact ⟨rfl, hbody l, ht, rfl⟩
          | _ => exact absurd hp id
      | recv n k =>
          cases p' with
          | recv n' k' =>
              obtain ⟨rfl, hk⟩ := hp
              exact ⟨rfl, Or.inr (Or.inl (hk _ _ (length_take_answer hr n))), ht, rfl⟩
          | _ => exact absurd hp id
      | get k =>
          cases p' with
          | get k' => exact ⟨rfl, Or.inr (Or.inl (hp t t' ht (hhidden rfl))), ht, rfl⟩
          | _ => exact absurd hp id
      | modify f k =>
          cases p' with
          | modify f' k' => exact ⟨rfl, Or.inr (Or.inl hp.2), ((hp.1 t).1.trans ht).trans (hp.1 t').2.symm, rfl⟩
          | _ => exact absurd hp id
      | emit s calls k => exact absurd hp id
      | exit => exact absurd hp id

omit hbody in
/-- Near programs receive. -/
theorem act_near {p p' : Prog σ S L} (hp : Prog.Near blur hidden p p') (pending : Option (S × Call × List Call))
    {t t' : σ} (ht : blur t = blur t') (r : Option Bytes) :
    SameStep blur hidden ((Thread.mk p pending).act body r t) ((Thread.mk p' pending).act body' r t') := by
  cases pending with
  | some q => exact ⟨rfl, Or.inr (Or.inr hp), ht, rfl⟩
  | none =>
      cases p with
      | recv n k =>
          cases p' with
          | recv n' k' =>
              obtain ⟨rfl, hk⟩ := hp
              exact ⟨rfl, hk _, ht, rfl⟩
          | _ => exact absurd hp id
      | _ => exact absurd hp id

end Act

/-! ## The runs -/

variable [DecidableEq τ] [DecidableEq S] {sys : ε → System τ σ S L}

/-- With the same answers from here on, nothing different is received. -/
theorem paired_same_answers {c c' : Config τ σ S L} {differ : τ → Bool} (hdiffer : ∀ i, differ i = false)
    {moves moves' : List (CallStep ε τ)}
    (h : List.Forall₂ (fun m m' => m.who = m'.who ∧ same m.memory m'.memory ∧ m.answer = m'.answer) moves moves') :
    Paired sys (Covertly same secret hidden) differ c c' moves moves' := by
  induction h generalizing c c' differ with
  | nil => trivial
  | @cons m m' _ _ hm _ ih =>
      obtain ⟨hwho, hmemory, hanswer⟩ := hm
      refine ⟨⟨hwho, hmemory, Or.inl hanswer, fun h => absurd ((hdiffer _).symm.trans h) (by decide)⟩, ih fun i => ?_⟩
      unfold heard
      by_cases hi : i = m.who
      · rw [hi, Function.update_self, hdiffer, hanswer]
        simp
      · rw [Function.update_of_ne hi]
        exact hdiffer i

section Step

variable (htame : ∀ e i l, ((sys e).body i l).Tame kept blur P)
  (hbody : ∀ e e', same e e' → ∀ i l, Prog.Matched blur hidden ((sys e).body i l) ((sys e').body i l))
  (hstarted : ∀ e e' i t t', blur t = blur t' → (sys e).started i t = (sys e').started i t')
  (hsecret : ∀ p p', secret p p' → Prog.Twins blur hidden p p')
include htame hbody hstarted hsecret

/-- **A step** of both runs. -/
theorem alike_step {c c' : Config τ σ S L} (h : Alike kept blur P hidden c c') {differ : τ → Bool} {m m' : CallStep ε τ}
    (hcovertly : Covertly same secret hidden differ c c' m m') (hunexposed : Unexposed hidden differ c c' m m') :
    Alike kept blur P hidden ((sys m.memory).step c m.who m.answer) ((sys m'.memory).step c' m'.who m'.answer) := by
  obtain ⟨hwho, hmemory, hr, hheard⟩ := hcovertly
  obtain ⟨memory, i, r⟩ := m
  obtain ⟨memory', i', r'⟩ := m'
  obtain rfl : i = i' := hwho
  dsimp only at hmemory hr hheard
  have hhidden : (c.thread i).code ≠ (c'.thread i).code → (c.thread i).code.tests = true → hidden c.state := by
    intro hne htests
    cases hd : differ i with
    | true => exact hheard hd htests
    | false => exact hunexposed hd hne htests
  have hstart : (sys memory).started i c.state = (sys memory').started i c'.state := hstarted _ _ i _ _ h.state
  by_cases hs : (sys memory).started i c.state = true
  swap
  · rw [System.step, if_neg hs, System.step, if_neg (hstart ▸ hs)]
    exact h
  obtain ⟨hpending, hcoded, hcoded', hcode⟩ := h.thread i
  -- the same code on what may differ, or two codes that differ by a hidden test
  have hact : SameStep blur hidden ((c.thread i).act ((sys memory).body i) r c.state)
      ((c'.thread i).act ((sys memory').body i) r' c'.state) := by
    generalize c.thread i = th at hpending hcoded hcode hr hhidden
    generalize c'.thread i = th' at hpending hcode hr hhidden
    obtain ⟨p, pending⟩ := th
    obtain ⟨p', pending'⟩ := th'
    obtain rfl : pending = pending' := hpending
    have hanswer : r = r' ∨ Prog.Twins blur hidden p p' ∧ r.map List.length = r'.map List.length :=
      hr.imp id (And.imp_left (hsecret p p'))
    have hlen : r.map List.length = r'.map List.length := by
      rcases hanswer with rfl | ⟨-, hlen⟩
      · rfl
      · exact hlen
    by_cases hsame : p = p'
    · subst hsame
      exact act_same (hbody _ _ hmemory i) hcoded pending h.state hanswer
    rcases hcode.resolve_left hsame with htwins | hnear
    · exact act_twins (hbody _ _ hmemory i) htwins pending h.state hlen (hhidden hsame)
    · rcases hanswer with rfl | ⟨htwins, -⟩
      · exact act_near hnear pending h.state r
      · exact act_twins (hbody _ _ hmemory i) htwins pending h.state hlen (hhidden hsame)
  rw [System.step, if_pos hs, System.step, if_pos (hstart ▸ hs)]
  refine ⟨hact.state, ?_, fun j => ?_⟩
  · funext s
    dsimp only
    rw [h.stream, hact.out]
  · by_cases hj : j = i
    · subst hj
      simp only [Function.update_self]
      exact ⟨hact.pending, tame_act (htame _ j) hcoded r c.state, tame_act (htame _ j) hcoded' r' c'.state, hact.code⟩
    · simp only [Function.update_of_ne hj]
      exact h.thread j

/-- **Covert runs are alike**, if nothing shows in what they leave behind. -/
theorem covert_alike {c c' : Config τ σ S L} (h : Alike kept blur P hidden c c') {differ : τ → Bool}
    {moves moves' : List (CallStep ε τ)} (hcovertly : Paired sys (Covertly same secret hidden) differ c c' moves moves')
    (hunexposed : Paired sys (Unexposed hidden) differ c c' moves moves') :
    Alike kept blur P hidden (play sys c moves) (play sys c' moves') := by
  induction moves generalizing c c' differ moves' with
  | nil =>
      cases moves' with
      | nil => exact h
      | cons m' moves' => exact absurd hcovertly id
  | cons m moves ih =>
      cases moves' with
      | nil => exact absurd hcovertly id
      | cons m' moves' =>
          exact ih (alike_step htame hbody hstarted hsecret h hcovertly.1 hunexposed.1) hcovertly.2 hunexposed.2

end Step

end Covert

end Wire
