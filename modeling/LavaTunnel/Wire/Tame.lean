import LavaTunnel.Wire.Interleave

/-!
# `Wire.Tame` — what a program writes, keeps, and depends on

`Prog.sent` are the packets of a run, each in one piece. `Tame kept blur P` says three things of a program in
one pass over its code, because every proof of one of them walks through the same binds:

* each packet it writes is in `P`;
* each of its updates keeps `kept`;
* nothing it does depends on the part of the state that `blur` removes.

The last one is noninterference: two runs from states that differ only there write the same
(`Tame.run_eq`).
-/

namespace Wire.Prog

variable {σ S T α β κ : Type}

/-! ## The packets of a run -/

section Sent

variable [Transport T]

/-- The packets a run writes. -/
def sent : Prog σ S α → T → σ → List (S × Bytes)
  | ret _, _, _ => []
  | recv n k, i, t => (k (Transport.recv i n).1).sent (Transport.recv i n).2 t
  | emit s cs k, i, t => (s, cs.flatMap Call.bytes) :: k.sent i t
  | get k, i, t => (k t).sent i t
  | modify f k, i, t => k.sent i (f t)
  | exit, _, _ => []

/-- What the second part of a run sends. -/
theorem sent_bind (p : Prog σ S α) (f : α → Prog σ S β) (i : T) (t : σ) :
    (p >>= f).sent i t = p.sent i t ++
      match (p.run i t).result with
      | none => []
      | some a => (f a).sent (p.run i t).input (p.run i t).state := by
  rw [bind_eq]
  induction p generalizing i t with
  | ret a => rfl
  | recv n k ih => exact ih _ _ _
  | emit s cs k ih => exact congrArg (List.cons _) (ih i t)
  | get k ih => exact ih _ _ _
  | modify g k ih => exact ih _ _
  | exit => rfl

/-- What is sent after a first part with a known run. -/
theorem sent_bind_of {p : Prog σ S α} {i i' : T} {t t' : σ} {a : α} {out : List (S × Bytes)}
    (h : p.run i t = ⟨some a, i', t', out⟩) (f : α → Prog σ S β) :
    (p >>= f).sent i t = p.sent i t ++ (f a).sent i' t' := by
  rw [sent_bind, h]

theorem sent_packet_bind (s : S) (cs : List Call) (f : Unit → Prog σ S β) (i : T) (t : σ) :
    (packet s cs >>= f).sent i t = (s, cs.flatMap Call.bytes) :: (f ()).sent i t := rfl

theorem sent_update_bind (g : σ → σ) (f : Unit → Prog σ S β) (i : T) (t : σ) :
    (update g >>= f).sent i t = (f ()).sent i (g t) := rfl

theorem sent_getState_bind (f : σ → Prog σ S β) (i : T) (t : σ) :
    (getState >>= f).sent i t = (f t).sent i t := rfl

/-- A result adds nothing. -/
theorem sent_bind_pure (p : Prog σ S α) (g : α → β) (i : T) (t : σ) :
    (do let a ← p; pure (g a) : Prog σ S β).sent i t = p.sent i t := by
  rw [sent_bind]
  cases (p.run i t).result with
  | none => exact List.append_nil _
  | some a => exact List.append_nil _

/-- A round, and what is sent in the rounds after it. -/
theorem sent_rounds_cons {L : Type} (body : L → Prog σ S L) (f : σ → σ) (fs : List (σ → σ)) {l l' : L} {i i' : T}
    {t t' : σ} {out : List (S × Bytes)} (h : (body l).run i (f t) = ⟨some l', i', t', out⟩) :
    (rounds body (f :: fs) l).sent i t = (body l).sent i (f t) ++ (rounds body fs l').sent i' t' :=
  sent_bind_of h (rounds body fs)

/-- The packets to one socket. -/
def sentTo [DecidableEq S] (s : S) (out : List (S × Bytes)) : List Bytes :=
  (out.filter (fun e => e.1 = s)).map Prod.snd

theorem mem_sentTo [DecidableEq S] {s : S} {out : List (S × Bytes)} {p : Bytes} :
    p ∈ sentTo s out ↔ (s, p) ∈ out := by
  unfold sentTo
  simp only [List.mem_map, List.mem_filter, decide_eq_true_eq]
  constructor
  · rintro ⟨⟨s', p'⟩, ⟨hmem, rfl⟩, rfl⟩
    exact hmem
  · exact fun hmem => ⟨(s, p), ⟨hmem, rfl⟩, rfl⟩

theorem sentTo_append [DecidableEq S] (s : S) (out out' : List (S × Bytes)) :
    sentTo s (out ++ out') = sentTo s out ++ sentTo s out' := by
  unfold sentTo
  rw [List.filter_append, List.map_append]

/-- The last packet of a kind is among the later ones, if there is one. -/
theorem getLast?_sentTo_append [DecidableEq S] (s : S) (kind : Bytes → Bool) (out out' : List (S × Bytes)) :
    ((sentTo s (out ++ out')).filter kind).getLast? =
      ((sentTo s out').filter kind).getLast?.or ((sentTo s out).filter kind).getLast? := by
  rw [sentTo_append, List.filter_append, List.getLast?_append]

/-- A stream is its packets, one after the other. -/
theorem stream_run [DecidableEq S] (s : S) (p : Prog σ S α) (i : T) (t : σ) :
    stream s (p.run i t).out = (sentTo s (p.sent i t)).flatten := by
  have hcons : ∀ (e : S × Bytes) (out : List (S × Bytes)),
      (sentTo s (e :: out)).flatten = (if e.1 = s then e.2 else []) ++ (sentTo s out).flatten := by
    intro e out
    unfold sentTo
    by_cases he : e.1 = s
    · rw [List.filter_cons_of_pos (by simpa using he), List.map_cons, List.flatten_cons, if_pos he]
    · rw [List.filter_cons_of_neg (by simpa using he), if_neg he, List.nil_append]
  -- only an `emit` adds to the stream
  induction p generalizing i t with
  | ret a => rfl
  | recv n k ih => exact ih _ _ _
  | emit s' cs k ih =>
      show stream s (written s' cs ++ (k.run i t).out) = _
      rw [stream_append, ih, sent, hcons]
      by_cases hs : s' = s
      · subst hs
        rw [stream_written, if_pos rfl]
      · rw [stream_written_ne hs, if_neg hs]
  | get k ih => exact ih _ _ _
  | modify g k ih => exact ih _ _
  | exit => rfl

end Sent

/-! ## Tame programs -/

/-- Every packet is in `P`, every update keeps `kept`, and nothing depends on what `blur` removes. -/
def Tame (kept : σ → κ) (blur : σ → σ) (P : S → Bytes → Prop) : Prog σ S α → Prop
  | ret _ => True
  | recv _ k => ∀ r, (k r).Tame kept blur P
  | emit s cs k => P s (cs.flatMap Call.bytes) ∧ k.Tame kept blur P
  | get k => ∀ t, k (blur t) = k t ∧ (k t).Tame kept blur P
  | modify f k => (∀ t, kept (f t) = kept t ∧ blur (f (blur t)) = blur (f t)) ∧ k.Tame kept blur P
  | exit => True

section Closure

variable {kept : σ → κ} {blur : σ → σ} {P Q : S → Bytes → Prop}

theorem Tame.bind {p : Prog σ S α} {f : α → Prog σ S β} (hp : p.Tame kept blur P)
    (hf : ∀ a, (f a).Tame kept blur P) : (p >>= f).Tame kept blur P := by
  rw [bind_eq]
  induction p with
  | ret a => exact hf a
  | recv n k ih => exact fun r => ih r (hp r)
  | emit s cs k ih => exact ⟨hp.1, ih hp.2⟩
  | get k ih => exact fun t => ⟨congrArg (fun q => q.bind f) (hp t).1, ih t (hp t).2⟩
  | modify g k ih => exact ⟨hp.1, ih hp.2⟩
  | exit => trivial

theorem Tame.pure (a : α) : (Pure.pure a : Prog σ S α).Tame kept blur P := trivial

theorem Tame.exit : (Prog.exit : Prog σ S α).Tame kept blur P := trivial

theorem Tame.recvCall (n : Nat) : (Prog.recvCall n : Prog σ S (Option Bytes)).Tame kept blur P :=
  fun _ => trivial

theorem Tame.packet {s : S} {cs : List Call} (h : P s (cs.flatMap Call.bytes)) :
    (Prog.packet s cs : Prog σ S Unit).Tame kept blur P := ⟨h, trivial⟩

theorem Tame.update {f : σ → σ} (hkept : ∀ t, kept (f t) = kept t)
    (hblur : ∀ t, blur (f (blur t)) = blur (f t)) : (Prog.update f : Prog σ S Unit).Tame kept blur P :=
  ⟨fun t => ⟨hkept t, hblur t⟩, trivial⟩

theorem Tame.getState_bind {f : σ → Prog σ S β} (hblur : ∀ t, f (blur t) = f t)
    (h : ∀ t, (f t).Tame kept blur P) : (getState >>= f).Tame kept blur P :=
  fun t => ⟨hblur t, h t⟩

theorem Tame.ite {c : Prop} [Decidable c] {p q : Prog σ S α} (hp : p.Tame kept blur P)
    (hq : q.Tame kept blur P) : (if c then p else q).Tame kept blur P := by
  by_cases hc : c
  · rw [if_pos hc]
    exact hp
  · rw [if_neg hc]
    exact hq

theorem Tame.onlyIf {c : Prop} [Decidable c] {p : Prog σ S Unit} (h : p.Tame kept blur P) :
    (Prog.onlyIf c p).Tame kept blur P := Tame.ite h (Tame.pure ())

theorem Tame.forEach_mem {body : β → Prog σ S Unit} {bs : List β} (h : ∀ b ∈ bs, (body b).Tame kept blur P) :
    (Prog.forEach body bs).Tame kept blur P := by
  induction bs with
  | nil => exact Tame.pure ()
  | cons b bs ih =>
      exact Tame.bind (h b List.mem_cons_self) (fun _ => ih (fun b' hb' => h b' (List.mem_cons_of_mem b hb')))

theorem Tame.forEach {body : β → Prog σ S Unit} (h : ∀ b, (body b).Tame kept blur P) (bs : List β) :
    (Prog.forEach body bs).Tame kept blur P := Tame.forEach_mem (fun b _ => h b)

/-- Less may be asked. -/
theorem Tame.mono {κ' : Type} (g : κ → κ') (hP : ∀ s bs, P s bs → Q s bs) {p : Prog σ S α}
    (h : p.Tame kept blur P) : p.Tame (fun t => g (kept t)) blur Q := by
  induction p with
  | ret a => trivial
  | recv n k ih => exact fun r => ih r (h r)
  | emit s cs k ih => exact ⟨hP s _ h.1, ih h.2⟩
  | get k ih => exact fun t => ⟨(h t).1, ih t (h t).2⟩
  | modify f k ih => exact ⟨fun t => ⟨congrArg g (h.1 t).1, (h.1 t).2⟩, ih h.2⟩
  | exit => trivial

theorem Tame.emits {p : Prog σ S α} (h : p.Tame kept blur P) : p.Emits P := by
  induction p with
  | ret a => trivial
  | recv n k ih => exact fun r => ih r (h r)
  | emit s cs k ih => exact ⟨h.1, ih h.2⟩
  | get k ih => exact fun t => ih t (h t).2
  | modify f k ih => exact ih h.2
  | exit => trivial

/-! ## Tame and local programs -/

/-- A tame program that neither receives nor ends the process. -/
structure Mild (kept : σ → κ) (blur : σ → σ) (P : S → Bytes → Prop) (p : Prog σ S α) : Prop where
  isLocal : p.Local kept P
  tame : p.Tame kept blur P

theorem Mild.bind {p : Prog σ S α} {f : α → Prog σ S β} (hp : p.Mild kept blur P)
    (hf : ∀ a, (f a).Mild kept blur P) : (p >>= f).Mild kept blur P :=
  ⟨Local.bind hp.isLocal (fun a => (hf a).isLocal), Tame.bind hp.tame (fun a => (hf a).tame)⟩

theorem Mild.pure (a : α) : (Pure.pure a : Prog σ S α).Mild kept blur P := ⟨trivial, trivial⟩

theorem Mild.packet {s : S} {cs : List Call} (h : P s (cs.flatMap Call.bytes)) :
    (Prog.packet s cs : Prog σ S Unit).Mild kept blur P := ⟨Local.packet h, Tame.packet h⟩

theorem Mild.update {f : σ → σ} (hkept : ∀ t, kept (f t) = kept t)
    (hblur : ∀ t, blur (f (blur t)) = blur (f t)) : (Prog.update f : Prog σ S Unit).Mild kept blur P :=
  ⟨Local.update hkept, Tame.update hkept hblur⟩

theorem Mild.getState_bind {f : σ → Prog σ S β} (hblur : ∀ t, f (blur t) = f t)
    (h : ∀ t, (f t).Mild kept blur P) : (getState >>= f).Mild kept blur P :=
  ⟨Local.getState_bind (fun t => (h t).isLocal), Tame.getState_bind hblur (fun t => (h t).tame)⟩

theorem Mild.ite {c : Prop} [Decidable c] {p q : Prog σ S α} (hp : p.Mild kept blur P)
    (hq : q.Mild kept blur P) : (if c then p else q).Mild kept blur P :=
  ⟨Local.ite hp.isLocal hq.isLocal, Tame.ite hp.tame hq.tame⟩

theorem Mild.onlyIf {c : Prop} [Decidable c] {p : Prog σ S Unit} (h : p.Mild kept blur P) :
    (Prog.onlyIf c p).Mild kept blur P := ⟨Local.onlyIf h.isLocal, Tame.onlyIf h.tame⟩

theorem Mild.forEach {body : β → Prog σ S Unit} (h : ∀ b, (body b).Mild kept blur P) (bs : List β) :
    (Prog.forEach body bs).Mild kept blur P :=
  ⟨Local.forEach (fun b => (h b).isLocal) bs, Tame.forEach (fun b => (h b).tame) bs⟩

theorem Mild.mono {κ' : Type} (g : κ → κ') (hP : ∀ s bs, P s bs → Q s bs) {p : Prog σ S α}
    (h : p.Mild kept blur P) : p.Mild (fun t => g (kept t)) blur Q :=
  ⟨h.isLocal.mono g hP, h.tame.mono g hP⟩

/-! ## Programs within an invariant -/

/-- From a state in `I` no update leaves `I`, and every packet is in `P`. -/
def Within (I : σ → Prop) (P : S → Bytes → Prop) : Prog σ S α → Prop
  | ret _ => True
  | recv _ k => ∀ r, (k r).Within I P
  | emit s cs k => P s (cs.flatMap Call.bytes) ∧ k.Within I P
  | get k => ∀ t, I t → (k t).Within I P
  | modify f k => (∀ t, I t → I (f t)) ∧ k.Within I P
  | exit => True

section Within

variable {I : σ → Prop}

theorem Within.bind {p : Prog σ S α} {f : α → Prog σ S β} (hp : p.Within I P) (hf : ∀ a, (f a).Within I P) :
    (p >>= f).Within I P := by
  rw [bind_eq]
  induction p with
  | ret a => exact hf a
  | recv n k ih => exact fun r => ih r (hp r)
  | emit s cs k ih => exact ⟨hp.1, ih hp.2⟩
  | get k ih => exact fun t ht => ih t (hp t ht)
  | modify g k ih => exact ⟨hp.1, ih hp.2⟩
  | exit => trivial

theorem Within.packet {s : S} {cs : List Call} (h : P s (cs.flatMap Call.bytes)) :
    (Prog.packet s cs : Prog σ S Unit).Within I P := ⟨h, trivial⟩

theorem Within.update {f : σ → σ} (h : ∀ t, I t → I (f t)) : (Prog.update f : Prog σ S Unit).Within I P :=
  ⟨h, trivial⟩

theorem Within.getState_bind {f : σ → Prog σ S β} (h : ∀ t, I t → (f t).Within I P) :
    (getState >>= f).Within I P := h

theorem Within.onlyIf {c : Prop} [Decidable c] {p : Prog σ S Unit} (h : c → p.Within I P) :
    (Prog.onlyIf c p).Within I P := by
  by_cases hc : c
  · rw [onlyIf_pos hc]
    exact h hc
  · rw [onlyIf_neg hc]
    trivial

theorem Within.forEach {body : β → Prog σ S Unit} {bs : List β} (h : ∀ b ∈ bs, (body b).Within I P) :
    (Prog.forEach body bs).Within I P := by
  induction bs with
  | nil => trivial
  | cons b bs ih =>
      exact Within.bind (h b List.mem_cons_self) (fun _ => ih (fun b' hb' => h b' (List.mem_cons_of_mem b hb')))

/-- An invariant of what is kept. -/
theorem Tame.within {p : Prog σ S α} (h : p.Tame kept blur P) (hI : ∀ t t', kept t' = kept t → I t → I t') :
    p.Within I P := by
  induction p with
  | ret a => trivial
  | recv n k ih => exact fun r => ih r (h r)
  | emit s cs k ih => exact ⟨h.1, ih h.2⟩
  | get k ih => exact fun t _ => ih t (h t).2
  | modify f k ih => exact ⟨fun t => hI t (f t) (h.1 t).1, ih h.2⟩
  | exit => trivial

/-- **A run stays within its invariant.** -/
theorem Within.run {T : Type} [Transport T] {p : Prog σ S α} (h : p.Within I P) (i : T) {t : σ} (ht : I t) :
    I (p.run i t).state ∧ ∀ e ∈ p.sent i t, P e.1 e.2 := by
  induction p generalizing i t with
  | ret a => exact ⟨ht, fun e he => absurd he List.not_mem_nil⟩
  | recv n k ih => exact ih _ (h _) _ ht
  | emit s cs k ih =>
      obtain ⟨hstate, hsent⟩ := ih h.2 i ht
      refine ⟨hstate, fun e he => ?_⟩
      rcases List.mem_cons.mp he with rfl | he
      · exact h.1
      · exact hsent e he
  | get k ih => exact ih t (h t ht) i ht
  | modify f k ih => exact ih h.2 i (h.1 t ht)
  | exit => exact ⟨ht, fun e he => absurd he List.not_mem_nil⟩

end Within

/-! ## What follows for a run -/

variable [Transport T]

theorem Emits.sent {p : Prog σ S α} (h : p.Emits P) (i : T) (t : σ) : ∀ e ∈ p.sent i t, P e.1 e.2 := by
  induction p generalizing i t with
  | ret a => exact fun e he => absurd he List.not_mem_nil
  | recv n k ih => exact ih _ (h _) _ _
  | emit s cs k ih =>
      intro e he
      rcases List.mem_cons.mp he with rfl | he
      · exact h.1
      · exact ih h.2 i t e he
  | get k ih => exact ih t (h t) i t
  | modify f k ih => exact ih h i (f t)
  | exit => exact fun e he => absurd he List.not_mem_nil

/-- A mild program sends what is in `P`, and what follows it starts from a state that keeps what it keeps. -/
theorem Mild.sent_bind {p : Prog σ S α} (h : p.Mild kept blur P) (f : α → Prog σ S β) (i : Bytes) (t : σ) :
    ∃ a t' out, (p >>= f).sent i t = out ++ (f a).sent i t' ∧ (∀ e ∈ out, P e.1 e.2) ∧ kept t' = kept t := by
  obtain ⟨a, t', out, htakes, hkept⟩ := h.isLocal.takes t
  refine ⟨a, t', p.sent i t, ?_, h.tame.emits.sent i t, hkept⟩
  exact sent_bind_of (htakes i) f

/-- Code that writes nothing sends nothing. -/
theorem sent_eq_nil {p : Prog σ S α} (h : p.Emits fun _ _ => False) (i : T) (t : σ) : p.sent i t = [] :=
  List.eq_nil_iff_forall_not_mem.mpr (fun e he => h.sent i t e he)

theorem Tame.run_kept {p : Prog σ S α} (h : p.Tame kept blur P) (i : T) (t : σ) :
    kept (p.run i t).state = kept t := by
  induction p generalizing i t with
  | ret a => rfl
  | recv n k ih => exact ih _ (h _) _ _
  | emit s cs k ih => exact ih h.2 i t
  | get k ih => exact ih t (h t).2 i t
  | modify f k ih => exact (ih h.2 i (f t)).trans (h.1 t).1
  | exit => rfl

/-- Two outcomes that look the same, and states that differ at most where `blur` does. -/
structure SameOutcome (blur : σ → σ) (o o' : Outcome σ S T α) : Prop where
  result : o.result = o'.result
  input : o.input = o'.input
  out : o.out = o'.out
  state : blur o.state = blur o'.state

/-- **Noninterference.** Runs from states that differ at most where `blur` does look the same. -/
theorem Tame.run_eq {p : Prog σ S α} (h : p.Tame kept blur P) (i : T) {t t' : σ} (ht : blur t = blur t') :
    SameOutcome blur (p.run i t) (p.run i t') ∧ p.sent i t = p.sent i t' := by
  induction p generalizing i t t' with
  | ret a => exact ⟨⟨rfl, rfl, rfl, ht⟩, rfl⟩
  | recv n k ih => exact ih _ (h _) _ ht
  | emit s cs k ih =>
      obtain ⟨⟨hr, hi, ho, hs⟩, hsent⟩ := ih h.2 i ht
      exact ⟨⟨hr, hi, congrArg (written s cs ++ ·) ho, hs⟩, congrArg (List.cons _) hsent⟩
  | get k ih =>
      -- the continuation reads the state through `blur`, so both states give the same one
      have hk : k t = k t' := by
        rw [← (h t).1, ht, (h t').1]
      obtain ⟨hsame, hsent⟩ := ih t (h t).2 i ht
      refine ⟨?_, ?_⟩
      · show SameOutcome blur ((k t).run i t) ((k t').run i t')
        rw [← hk]
        exact hsame
      · show (k t).sent i t = (k t').sent i t'
        rw [← hk]
        exact hsent
  | modify f k ih =>
      have hf : blur (f t) = blur (f t') := by
        rw [← (h.1 t).2, ht, (h.1 t').2]
      exact ih h.2 i hf
  | exit => exact ⟨⟨rfl, rfl, rfl, ht⟩, rfl⟩

end Closure

end Wire.Prog
