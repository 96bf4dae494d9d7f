import LavaTunnel.Wire.Tame

/-!
# `Wire.First` — who writes first

One thread opens a connection, which starts another thread, and the first packet on a socket is to be that
one's. Nothing makes the others wait:

* `Settled`, `Latch` — code that leaves alone what the first packet is made of, and code that may open first;
* `Begins` — what a program writes first;
* `late_first_iff` — the stream is that packet, as far as it goes, at every moment of a run just if in no step
  another thread writes before the packet is through.
-/

namespace Wire

namespace Prog

variable {σ S α β κ : Type} {kept : σ → κ} {isOpen : κ → Bool} {blur : σ → σ} {P : S → Bytes → Prop} {R : β → Prop}

/-- Every update keeps `kept`, and what is returned is in `R`. -/
def Settled (kept : σ → κ) (R : α → Prop) : Prog σ S α → Prop
  | ret a => R a
  | recv _ k => ∀ r, (k r).Settled kept R
  | emit _ _ k => k.Settled kept R
  | get k => ∀ t, (k t).Settled kept R
  | modify f k => (∀ t, kept (f t) = kept t) ∧ k.Settled kept R
  | exit => True

/-- Every update keeps `kept`, up to one that may open; what follows that one is settled. -/
def Latch (kept : σ → κ) (isOpen : κ → Bool) (R : α → Prop) : Prog σ S α → Prop
  | ret _ => True
  | recv _ k => ∀ r, (k r).Latch kept isOpen R
  | emit _ _ k => k.Latch kept isOpen R
  | get k => ∀ t, (k t).Latch kept isOpen R
  | modify f k => ((∀ t, kept (f t) = kept t) ∧ k.Latch kept isOpen R) ∨
      ((∀ t, isOpen (kept (f t)) = true) ∧ k.Settled kept R)
  | exit => True

/-- As long as `kept` is `a`, the first packet is `bs`, and it goes to `s`. -/
def Begins (kept : σ → κ) (a : κ) (s : S) (bs : Bytes) : Prog σ S α → Prop
  | ret _ => False
  | recv _ k => ∀ r, (k r).Begins kept a s bs
  | emit s' cs _ => s' = s ∧ cs.flatMap Call.bytes = bs
  | get k => ∀ t, kept t = a → (k t).Begins kept a s bs
  | modify _ k => k.Begins kept a s bs
  | exit => True

theorem Tame.settled_bind {p : Prog σ S α} {f : α → Prog σ S β} (hp : p.Tame kept blur P)
    (hf : ∀ a, (f a).Settled kept R) : (p >>= f).Settled kept R := by
  rw [bind_eq]
  induction p with
  | ret a => exact hf a
  | recv n k ih => exact fun r => ih r (hp r)
  | emit s cs k ih => exact ih hp.2
  | get k ih => exact fun t => ih t (hp t).2
  | modify g k ih => exact ⟨fun t => (hp.1 t).1, ih hp.2⟩
  | exit => trivial

theorem Tame.latch_bind {p : Prog σ S α} {f : α → Prog σ S β} (hp : p.Tame kept blur P)
    (hf : ∀ a, (f a).Latch kept isOpen R) : (p >>= f).Latch kept isOpen R := by
  rw [bind_eq]
  induction p with
  | ret a => exact hf a
  | recv n k ih => exact fun r => ih r (hp r)
  | emit s cs k ih => exact ih hp.2
  | get k ih => exact fun t => ih t (hp t).2
  | modify g k ih => exact Or.inl ⟨fun t => (hp.1 t).1, ih hp.2⟩
  | exit => trivial

/-- A run of settled code. -/
theorem Settled.run {T : Type} [Transport T] {p : Prog σ S β} (h : p.Settled kept R) (i : T) (t : σ) :
    kept (p.run i t).state = kept t ∧ ∀ b, (p.run i t).result = some b → R b := by
  induction p generalizing i t with
  | ret a =>
      refine ⟨rfl, ?_⟩
      rintro b ⟨⟩
      exact h
  | recv n k ih => exact ih _ (h _) _ _
  | emit s cs k ih => exact ih h i t
  | get k ih => exact ih t (h t) i t
  | modify f k ih =>
      obtain ⟨hkept, hresult⟩ := ih h.2 i (f t)
      exact ⟨hkept.trans (h.1 t), hresult⟩
  | exit => exact ⟨rfl, fun b hb => absurd hb (by simp [Prog.run])⟩

end Prog

variable {τ σ S L κ : Type} [DecidableEq τ] [DecidableEq S]

/-! ## What a step writes -/

/-- What a thread's next call writes, and where. -/
def Thread.writes (th : Thread σ S L) : Option (S × Bytes) :=
  match th.pending with
  | some (s, call, _) => some (s, call.bytes)
  | none =>
    match th.code with
    | .emit s (call :: _) _ => some (s, call.bytes)
    | _ => none

omit [DecidableEq S] in
theorem act_writes (body : L → Prog σ S L) (r : Option Bytes) (t : σ) (th : Thread σ S L) :
    (th.act body r t).2.2 = th.writes := by
  obtain ⟨code, pending⟩ := th
  cases pending with
  | some p => rfl
  | none =>
      cases code with
      | emit s calls k =>
          cases calls with
          | nil => rfl
          | cons call rest => rfl
      | _ => rfl

/-- What a step of thread `i` writes, and where. -/
def System.writes (sys : System τ σ S L) (c : Config τ σ S L) (i : τ) : Option (S × Bytes) :=
  if sys.started i c.state = true then (c.thread i).writes else none

section Steps

variable {sys : System τ σ S L} {c : Config τ σ S L} {i j : τ} {s : S} {r : Option Bytes}

theorem stream_step (sys : System τ σ S L) (c : Config τ σ S L) (i : τ) (r : Option Bytes) (s : S) :
    (sys.step c i r).stream s = c.stream s ++
      match sys.writes c i with
      | some (s', bs) => if s' = s then tag i bs else []
      | none => [] := by
  unfold System.step System.writes
  by_cases hstart : sys.started i c.state = true
  · have hwrites := act_writes (sys.body i) r c.state (c.thread i)
    rw [if_pos hstart, if_pos hstart]
    generalize (c.thread i).writes = w at hwrites ⊢
    subst hwrites
    rfl
  · rw [if_neg hstart, if_neg hstart]
    exact (List.append_nil _).symm

theorem stream_step_of_writes {bs : Bytes} (h : sys.writes c i = some (s, bs)) :
    (sys.step c i r).stream s = c.stream s ++ tag i bs := by
  rw [stream_step, h]
  exact congrArg (c.stream s ++ ·) (if_pos rfl)

/-- A step that writes no byte to `s`. -/
theorem stream_step_of_not (h : ∀ bs, sys.writes c i = some (s, bs) → bs = []) :
    (sys.step c i r).stream s = c.stream s := by
  rw [stream_step]
  cases hw : sys.writes c i with
  | none => exact List.append_nil _
  | some p =>
      obtain ⟨s', bs⟩ := p
      dsimp only
      by_cases hs : s' = s
      · subst hs
        rw [if_pos rfl, h bs hw]
        exact List.append_nil _
      · rw [if_neg hs, List.append_nil]

theorem step_of_not_started (h : ¬ sys.started i c.state = true) : sys.step c i r = c := if_neg h

theorem step_thread_ne (h : j ≠ i) : (sys.step c i r).thread j = c.thread j := by
  unfold System.step
  by_cases hstart : sys.started i c.state = true
  · rw [if_pos hstart]
    exact Function.update_of_ne h _ _
  · rw [if_neg hstart]

theorem step_thread_self (h : sys.started i c.state = true) :
    (sys.step c i r).thread i = ((c.thread i).act (sys.body i) r c.state).1 := by
  rw [System.step, if_pos h]
  exact Function.update_self _ _ _

theorem step_state (h : sys.started i c.state = true) :
    (sys.step c i r).state = ((c.thread i).act (sys.body i) r c.state).2.1 := by
  rw [System.step, if_pos h]

/-- Every step of the run is good in the configuration it finds. -/
def System.EachStep (sys : System τ σ S L) (ok : Config τ σ S L → τ → Prop) :
    Config τ σ S L → List (τ × Option Bytes) → Prop
  | _, [] => True
  | c, e :: sched => ok c e.1 ∧ sys.EachStep ok (sys.step c e.1 e.2) sched

/-- What holds at every moment of a run, from an invariant of its good steps, if a step that is not good breaks
    it. -/
theorem moments_iff {ok : Config τ σ S L → τ → Prop} {I Good : Config τ σ S L → Prop}
    (hgood : ∀ c, I c → Good c) (hstep : ∀ c i r, I c → ok c i → I (sys.step c i r))
    (hback : ∀ c i r, I c → Good (sys.step c i r) → ok c i) (hc : I c) (sched : List (τ × Option Bytes)) :
    (∀ n, Good (sys.exec c (sched.take n))) ↔ sys.EachStep ok c sched := by
  induction sched generalizing c with
  | nil => exact iff_of_true (fun n => by rw [List.take_nil]; exact hgood c hc) trivial
  | cons e sched ih =>
      constructor
      · intro hall
        have hok : ok c e.1 := hback c e.1 e.2 hc (hall 1)
        exact ⟨hok, (ih (hstep c e.1 e.2 hc hok)).mp fun n => hall (n + 1)⟩
      · rintro ⟨hok, hrest⟩ n
        cases n with
        | zero => exact hgood c hc
        | succ n => exact (ih (hstep c e.1 e.2 hc hok)).mpr hrest n

end Steps

/-! ## Settled threads -/

section Settled

variable {sys : System τ σ S L} {c : Config τ σ S L} {kept : σ → κ} {isOpen : κ → Bool} {R : L → Prop}
  {body : L → Prog σ S L} {r : Option Bytes} {t : σ} {th : Thread σ S L}

omit [DecidableEq S] in
theorem settled_act (hbody : ∀ l, R l → (body l).Settled kept R) (h : th.code.Settled kept R) :
    (th.act body r t).1.code.Settled kept R ∧ kept (th.act body r t).2.1 = kept t := by
  obtain ⟨code, pending⟩ := th
  cases pending with
  | some p => exact ⟨h, rfl⟩
  | none =>
      cases code with
      | ret l => exact ⟨hbody l h, rfl⟩
      | recv n k => exact ⟨h _, rfl⟩
      | emit s calls k =>
          cases calls with
          | nil => exact ⟨h, rfl⟩
          | cons call rest => exact ⟨h, rfl⟩
      | get k => exact ⟨h t, rfl⟩
      | modify f k => exact ⟨h.2, h.1 t⟩
      | exit => exact ⟨trivial, rfl⟩

omit [DecidableEq S] in
theorem latch_act (hbody : ∀ l, (body l).Latch kept isOpen R) (h : th.code.Latch kept isOpen R) :
    ((th.act body r t).1.code.Latch kept isOpen R ∧ kept (th.act body r t).2.1 = kept t) ∨
      ((th.act body r t).1.code.Settled kept R ∧ isOpen (kept (th.act body r t).2.1) = true) := by
  obtain ⟨code, pending⟩ := th
  cases pending with
  | some p => exact Or.inl ⟨h, rfl⟩
  | none =>
      cases code with
      | ret l => exact Or.inl ⟨hbody l, rfl⟩
      | recv n k => exact Or.inl ⟨h _, rfl⟩
      | emit s calls k =>
          cases calls with
          | nil => exact Or.inl ⟨h, rfl⟩
          | cons call rest => exact Or.inl ⟨h, rfl⟩
      | get k => exact Or.inl ⟨h t, rfl⟩
      | modify f k =>
          -- an update keeps the view, or it is the one that opens the latch
          rcases h with ⟨hkept, hk⟩ | ⟨hopen, hk⟩
          · exact Or.inl ⟨hk, hkept t⟩
          · exact Or.inr ⟨hk, hopen t⟩
      | exit => exact Or.inl ⟨trivial, rfl⟩

/-- Settled threads stay so, and keep what they keep. -/
theorem settled_step (hbody : ∀ j l, R l → (sys.body j l).Settled kept R)
    (h : ∀ j, (c.thread j).code.Settled kept R) (i : τ) :
    (∀ j, ((sys.step c i r).thread j).code.Settled kept R) ∧ kept (sys.step c i r).state = kept c.state := by
  by_cases hstart : sys.started i c.state = true
  swap
  · rw [step_of_not_started hstart]
    exact ⟨h, rfl⟩
  obtain ⟨hcode, hkept⟩ := settled_act (r := r) (t := c.state) (hbody i) (h i)
  refine ⟨fun j => ?_, by rw [step_state hstart]; exact hkept⟩
  by_cases hj : j = i
  · subst hj
    rw [step_thread_self hstart]
    exact hcode
  · rw [step_thread_ne hj]
    exact h j

end Settled

/-! ## The first packet -/

section First

variable (sys : System τ σ S L) (kept : σ → κ) (first : κ → Bytes) (i : τ) (s : S)

/-- How far thread `i` has come with its first packet: it has not begun its round, it has not begun the packet,
    it is in the middle of it, or it is through. -/
inductive Stage (c : Config τ σ S L) : Prop
  | waits (l : L) (hthread : c.thread i = ⟨.ret l, none⟩)
      (hbegins : (sys.body i l).Begins kept (kept c.state) s (first (kept c.state))) (hstream : c.stream s = [])
  | begins (hpending : (c.thread i).pending = none)
      (hbegins : (c.thread i).code.Begins kept (kept c.state) s (first (kept c.state))) (hstream : c.stream s = [])
  | inside (done : Bytes) (call : Call) (rest : List Call) (hpending : (c.thread i).pending = some (s, call, rest))
      (hstream : c.stream s = tag i done)
      (hbytes : done ++ (call :: rest).flatMap Call.bytes = first (kept c.state))
  | through (hstream : tag i (first (kept c.state)) <+: c.stream s)

/-- The bytes that thread `i` has written to `s`. -/
def writtenBy (c : Config τ σ S L) : Nat := ((c.stream s).filter (fun b => b.1 = i)).length

/-- Another thread writes to `s` only when thread `i` has written `n` bytes there. -/
def AwaitsFirst (n : Nat) (c : Config τ σ S L) (j : τ) : Prop :=
  j ≠ i → ∀ bs, sys.writes c j = some (s, bs) → bs ≠ [] → n ≤ writtenBy i s c

/-- The stream is the first packet of thread `i`, as far as it goes. -/
def FirstIs (c : Config τ σ S L) : Prop :=
  c.stream s <+: tag i (first (kept c.state)) ∨ tag i (first (kept c.state)) <+: c.stream s

variable {sys kept first i s} {c : Config τ σ S L}

omit [DecidableEq S] in
theorem filter_tag (done : Bytes) : (tag i done).filter (fun b => b.1 = i) = tag i done := by
  refine List.filter_eq_self.mpr fun b hb => ?_
  obtain ⟨x, -, rfl⟩ := List.mem_map.mp hb
  simp

omit [DecidableEq τ] [DecidableEq S] in
@[simp] theorem length_tag (j : τ) (done : Bytes) : (tag j done).length = done.length := List.length_map _

omit [DecidableEq τ] [DecidableEq S] in
/-- As long as the packet is not through, the stream is a part of it, and another one's byte does not fit. -/
theorem Stage.part (h : Stage sys kept first i s c) :
    (∃ done, c.stream s = tag i done ∧ done <+: first (kept c.state)) ∨
      tag i (first (kept c.state)) <+: c.stream s := by
  cases h with
  | waits l _ _ hstream => exact Or.inl ⟨[], hstream, List.nil_prefix⟩
  | begins _ _ hstream => exact Or.inl ⟨[], hstream, List.nil_prefix⟩
  | inside done call rest _ hstream hbytes => exact Or.inl ⟨done, hstream, hbytes ▸ List.prefix_append _ _⟩
  | through hstream => exact Or.inr hstream

omit [DecidableEq τ] [DecidableEq S] in
theorem Stage.firstIs (h : Stage sys kept first i s c) : FirstIs kept first i s c := by
  rcases h.part with ⟨done, hstream, hdone⟩ | hthrough
  · refine Or.inl ?_
    rw [hstream]
    exact hdone.map _
  · exact Or.inr hthrough

omit [DecidableEq S] in
/-- When thread `i` has written as many bytes as the packet has, the packet is through. -/
theorem Stage.through_of_written (h : Stage sys kept first i s c)
    (hwritten : (first (kept c.state)).length ≤ writtenBy i s c) : tag i (first (kept c.state)) <+: c.stream s := by
  rcases h.part with ⟨done, hstream, hdone⟩ | hthrough
  · have hlen : writtenBy i s c = done.length := by rw [writtenBy, hstream, filter_tag, length_tag]
    obtain rfl : done = first (kept c.state) := hdone.eq_of_length_le (hlen ▸ hwritten)
    exact hstream ▸ List.prefix_rfl
  · exact hthrough

omit [DecidableEq S] in
/-- A call of a program that is about to write the packet writes nothing, or its first part. -/
theorem begins_act {p : Prog σ S L} (body : L → Prog σ S L) (r : Option Bytes) {t : σ} {bs : Bytes} (hbs : bs ≠ [])
    (h : p.Begins kept (kept t) s bs) :
    ((Thread.act body r t ⟨p, none⟩).1.pending = none ∧
      (Thread.act body r t ⟨p, none⟩).1.code.Begins kept (kept t) s bs ∧
      (Thread.writes ⟨p, none⟩ : Option (S × Bytes)) = none) ∨
    ∃ call rest, (Thread.act body r t ⟨p, none⟩).1.pending = mid s rest ∧
      Thread.writes ⟨p, none⟩ = some (s, call.bytes) ∧ (call :: rest).flatMap Call.bytes = bs := by
  cases p with
  | ret l => exact absurd h id
  | recv n k => exact Or.inl ⟨rfl, h _, rfl⟩
  | emit s' calls k =>
      obtain ⟨rfl, hbytes⟩ := h
      cases calls with
      | nil => exact absurd hbytes.symm hbs
      | cons call rest => exact Or.inr ⟨call, rest, rfl, rfl, hbytes⟩
  | get k => exact Or.inl ⟨rfl, h t rfl, rfl⟩
  | modify f k => exact Or.inl ⟨rfl, h, rfl⟩
  | exit => exact Or.inl ⟨rfl, h, rfl⟩

omit [DecidableEq τ] [DecidableEq S] in
/-- What thread `i` has written of its packet, and the rest of it. -/
theorem Stage.of_mid {c' : Config τ σ S L} (done : Bytes) (rest : List Call)
    (hpending : (c'.thread i).pending = mid s rest) (hstream : c'.stream s = tag i done)
    (hbytes : done ++ rest.flatMap Call.bytes = first (kept c'.state)) : Stage sys kept first i s c' := by
  cases rest with
  | nil =>
      have hdone : done = first (kept c'.state) := by
        rw [← hbytes]
        exact (List.append_nil done).symm
      have hwhole : tag i (first (kept c'.state)) = c'.stream s := by rw [hstream, hdone]
      exact Stage.through (hwhole ▸ List.prefix_rfl)
  | cons call rest => exact Stage.inside done call rest hpending hstream hbytes

/-- **A step in which the others wait** keeps the first packet in one piece. -/
theorem stage_step {j : τ} {r : Option Bytes} (hkept : kept (sys.step c j r).state = kept c.state)
    (hne : first (kept c.state) ≠ []) (h : Stage sys kept first i s c)
    (hok : AwaitsFirst sys i s (first (kept c.state)).length c j) : Stage sys kept first i s (sys.step c j r) := by
  -- what has gone through stays in front of the stream
  by_cases hthrough : tag i (first (kept c.state)) <+: c.stream s
  · refine Stage.through ?_
    rw [hkept, stream_step]
    exact hthrough.trans (List.prefix_append _ _)
  by_cases hj : j = i
  swap
  · -- another thread, which writes nothing to the socket
    have hthread : (sys.step c j r).thread i = c.thread i := step_thread_ne (Ne.symm hj)
    have hstream : (sys.step c j r).stream s = c.stream s := by
      refine stream_step_of_not fun bs hbs => ?_
      by_contra hbytes
      exact hthrough (h.through_of_written (hok hj bs hbs hbytes))
    cases h with
    | waits l hl hbegins hempty =>
        exact Stage.waits l (hthread.trans hl) (hkept.symm ▸ hbegins) (hstream.trans hempty)
    | begins hpending hbegins hempty =>
        refine Stage.begins ?_ ?_ (hstream.trans hempty)
        · rw [hthread, hpending]
        · rw [hthread, hkept]
          exact hbegins
    | inside done call rest hpending hdone hbytes =>
        exact Stage.inside done call rest (by rw [hthread, hpending]) (hstream.trans hdone) (hkept.symm ▸ hbytes)
    | through hpast => exact absurd hpast hthrough
  subst hj
  by_cases hstart : sys.started j c.state = true
  swap
  · rw [step_of_not_started hstart]
    exact h
  -- the thread itself: it begins, it goes on before its first write, or it goes on writing
  have hself : (sys.step c j r).thread j = ((c.thread j).act (sys.body j) r c.state).1 := step_thread_self hstart
  have hwrites : sys.writes c j = (c.thread j).writes := if_pos hstart
  cases h with
  | waits l hl hbegins hempty =>
      rw [hl] at hself hwrites
      refine Stage.begins (by rw [hself]; rfl) ?_ ((stream_step_of_not fun bs hbs => ?_).trans hempty)
      · rw [hself, hkept]
        exact hbegins
      · rw [hwrites] at hbs
        exact absurd hbs (by simp [Thread.writes])
  | begins hpending hbegins hempty =>
      obtain ⟨p, hp⟩ : ∃ p, c.thread j = ⟨p, none⟩ := ⟨_, congrArg (Thread.mk _) hpending⟩
      rw [hp] at hself hwrites hbegins
      rcases begins_act (sys.body j) r hne hbegins with ⟨hpend, hcode, hnone⟩ | ⟨call, rest, hpend, hw, hbytes⟩
      · refine Stage.begins (by rw [hself, hpend]) ?_ ((stream_step_of_not fun bs hbs => ?_).trans hempty)
        · rw [hself, hkept]
          exact hcode
        · rw [hwrites, hnone] at hbs
          exact absurd hbs (by simp)
      · refine Stage.of_mid call.bytes rest (by rw [hself, hpend]) ?_ (hkept.symm ▸ hbytes)
        rw [stream_step_of_writes (hwrites.trans hw), hempty]
        rfl
  | inside done call rest hpending hdone hbytes =>
      have hw : sys.writes c j = some (s, call.bytes) := by
        rw [hwrites]
        unfold Thread.writes
        rw [hpending]
      refine Stage.of_mid (done ++ call.bytes) rest ?_ ?_ ?_
      · rw [hself]
        unfold Thread.act
        rw [hpending]
      · rw [stream_step_of_writes hw, hdone, tag_append]
      · rw [hkept, ← hbytes, List.append_assoc]
        rfl
  | through hpast => exact absurd hpast hthrough

omit [DecidableEq τ] [DecidableEq S] in
/-- A byte of another thread does not fit into the packet. -/
theorem not_firstIs_of_foreign {j : τ} (hj : j ≠ i) (done bs : Bytes) {packet : Bytes}
    (hlt : done.length < packet.length)
    (hbs : bs ≠ []) : ¬ (tag i done ++ tag j bs <+: tag i packet ∨ tag i packet <+: tag i done ++ tag j bs) := by
  obtain ⟨b, bs, rfl⟩ := List.exists_cons_of_ne_nil hbs
  -- the two lists have bytes of different threads at the same index
  have hleft : (tag i done ++ tag j (b :: bs))[done.length]? = some (j, b) := by
    rw [List.getElem?_append_right (by simp)]
    simp [tag]
  have hright : (tag i packet)[done.length]? = some (i, packet[done.length]) := by
    simp [tag, hlt]
  rintro (⟨rest, h⟩ | ⟨rest, h⟩)
  · have hsame : ((tag i done ++ tag j (b :: bs)) ++ rest)[done.length]? =
        (tag i done ++ tag j (b :: bs))[done.length]? :=
      List.getElem?_append_left (List.getElem?_eq_some_iff.mp hleft).1
    rw [h, hleft, hright] at hsame
    exact hj (congrArg Prod.fst (Option.some.inj hsame)).symm
  · have hsame : (tag i packet ++ rest)[done.length]? = (tag i packet)[done.length]? :=
      List.getElem?_append_left (List.getElem?_eq_some_iff.mp hright).1
    rw [h, hleft, hright] at hsame
    exact hj (congrArg Prod.fst (Option.some.inj hsame))

/-! ## Whole runs -/

variable (sys kept first i s) in
/-- Thread `o` may open, whereupon thread `i` is started in `l₀`: its first packet, of `n` bytes, goes to `s`. -/
structure LateStart (isOpen : κ → Bool) (R : L → Prop) (o : τ) (l₀ : L) (n : Nat) : Prop where
  body : ∀ j l, R l → (sys.body j l).Settled kept R
  opener : ∀ l, (sys.body o l).Latch kept isOpen R
  started : ∀ t, sys.started i t = isOpen (kept t)
  begins : ∀ a, (sys.body i l₀).Begins kept a s (first a)
  length : ∀ a, (first a).length = n
  pos : 0 < n

variable {isOpen : κ → Bool} {R : L → Prop} {o : τ} {l₀ : L} {n : Nat}

variable (sys kept first i s isOpen R o l₀) in
/-- Nothing is open yet, or all threads are settled and the first packet is under way. -/
inductive Late (c : Config τ σ S L) : Prop
  | closed (hclosed : isOpen (kept c.state) = false) (hsettled : ∀ j, j ≠ o → (c.thread j).code.Settled kept R)
      (hopener : (c.thread o).code.Latch kept isOpen R) (hthread : c.thread i = ⟨.ret l₀, none⟩)
      (hstream : c.stream s = [])
  | opened (hsettled : ∀ j, (c.thread j).code.Settled kept R) (hstage : Stage sys kept first i s c)

omit [DecidableEq τ] [DecidableEq S] in
theorem Late.firstIs (h : Late sys kept first i s isOpen R o l₀ c) : FirstIs kept first i s c := by
  cases h with
  | closed _ _ _ _ hstream => exact Or.inl (hstream ▸ List.nil_prefix)
  | opened _ hstage => exact hstage.firstIs

omit [DecidableEq τ] [DecidableEq S] in
theorem Late.part (h : Late sys kept first i s isOpen R o l₀ c) :
    (∃ done, c.stream s = tag i done ∧ done <+: first (kept c.state)) ∨
      tag i (first (kept c.state)) <+: c.stream s := by
  cases h with
  | closed _ _ _ _ hstream => exact Or.inl ⟨[], hstream, List.nil_prefix⟩
  | opened _ hstage => exact hstage.part

theorem late_step (hsys : LateStart sys kept first i s isOpen R o l₀ n) {j : τ} {r : Option Bytes}
    (h : Late sys kept first i s isOpen R o l₀ c) (hok : AwaitsFirst sys i s n c j) :
    Late sys kept first i s isOpen R o l₀ (sys.step c j r) := by
  by_cases hstart : sys.started j c.state = true
  swap
  · rw [step_of_not_started hstart]
    exact h
  cases h with
  | opened hsettled hstage =>
      obtain ⟨hsettled', hkept⟩ := settled_step (r := r) hsys.body hsettled j
      have hne : first (kept c.state) ≠ [] :=
        List.ne_nil_of_length_pos ((hsys.length _).symm ▸ hsys.pos)
      exact Late.opened hsettled' (stage_step hkept hne hstage ((hsys.length _).symm ▸ hok))
  | closed hclosed hsettled hopener hthread hempty =>
      -- thread `i` has not been started, so it is another one, and it writes nothing
      have hj : j ≠ i := by
        rintro rfl
        rw [hsys.started, hclosed] at hstart
        exact absurd hstart (by simp)
      have hthread' : (sys.step c j r).thread i = ⟨.ret l₀, none⟩ := (step_thread_ne (Ne.symm hj)).trans hthread
      have hstream : (sys.step c j r).stream s = [] := by
        refine (stream_step_of_not fun bs hbs => ?_).trans hempty
        by_contra hbytes
        have hwritten : n ≤ writtenBy i s c := hok hj bs hbs hbytes
        rw [writtenBy, hempty] at hwritten
        exact absurd hsys.pos (by simpa using hwritten)
      have hself : (sys.step c j r).thread j = ((c.thread j).act (sys.body j) r c.state).1 := step_thread_self hstart
      have hstate : (sys.step c j r).state = ((c.thread j).act (sys.body j) r c.state).2.1 := step_state hstart
      have hother : ∀ k, k ≠ j → k ≠ o → ((sys.step c j r).thread k).code.Settled kept R := by
        intro k hk hko
        rw [step_thread_ne hk]
        exact hsettled k hko
      by_cases hjo : j = o
      · subst hjo
        have hrest : ∀ k, k ≠ j → ((sys.step c j r).thread k).code.Settled kept R := fun k hk => hother k hk hk
        rcases latch_act (r := r) (t := c.state) hsys.opener hopener with ⟨hcode, hkept⟩ | ⟨hcode, hopen⟩
        · refine Late.closed ?_ hrest (by rw [hself]; exact hcode) hthread' hstream
          rw [hstate, hkept]
          exact hclosed
        · refine Late.opened (fun k => ?_) (Stage.waits l₀ hthread' (hsys.begins _) hstream)
          by_cases hk : k = j
          · rw [hk, hself]
            exact hcode
          · exact hrest k hk
      · obtain ⟨hcode, hkept⟩ := settled_act (r := r) (t := c.state) (hsys.body j) (hsettled j hjo)
        refine Late.closed ?_ (fun k hko => ?_) ?_ hthread' hstream
        · rw [hstate, hkept]
          exact hclosed
        · by_cases hk : k = j
          · rw [hk, hself]
            exact hcode
          · exact hother k hk hko
        · rw [step_thread_ne (Ne.symm hjo)]
          exact hopener

/-- **The first packet is the first thing written** at every moment of a run just if the others wait for it in
    every step. -/
theorem late_first_iff (hsys : LateStart sys kept first i s isOpen R o l₀ n)
    (h : Late sys kept first i s isOpen R o l₀ c) (sched : List (τ × Option Bytes)) :
    (∀ m, FirstIs kept first i s (sys.exec c (sched.take m))) ↔ sys.EachStep (AwaitsFirst sys i s n) c sched := by
  refine moments_iff (I := Late sys kept first i s isOpen R o l₀) (fun c hc => hc.firstIs)
    (fun c j r hc hok => late_step hsys hc hok) (fun c j r hc hfirst => ?_) h sched
  intro hj bs hbs hbytes
  have hlength : (first (kept c.state)).length = n := hsys.length _
  rcases hc.part with ⟨done, hstream, -⟩ | hthrough
  · by_contra hlt
    rw [writtenBy, hstream, filter_tag, length_tag, Nat.not_le] at hlt
    rw [FirstIs, stream_step_of_writes hbs, hstream] at hfirst
    exact not_firstIs_of_foreign hj done bs (hsys.length (kept (sys.step c j r).state) ▸ hlt) hbytes hfirst
  · have hle := (hthrough.filter (fun b => decide (b.1 = i))).length_le
    rw [filter_tag, length_tag, hlength] at hle
    exact hle

end First

end Wire
