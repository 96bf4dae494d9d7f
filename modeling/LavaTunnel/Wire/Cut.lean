import LavaTunnel.Wire.Tame

/-!
# `Wire.Cut` — a stream that breaks off

A connection ends in the middle of a packet, either in order or with an error. `Line` is such a stream. Whole
packets are taken from it as from any other (`Takes.run_line`), so what the end does to a loop is what the
round of the last, incomplete packet does: `nothingInvented_iff`. A program that writes whatever it receives
`Speaks`.
-/

namespace Wire

/-- The bytes that still come, and whether an error follows them instead of the end of the stream. -/
structure Line where
  bytes : Bytes
  broken : Bool

instance : Transport Line where
  recv i n :=
    if i.bytes = [] ∧ i.broken = true ∧ n ≠ 0 then (none, i) else (some (i.bytes.take n), ⟨i.bytes.drop n, i.broken⟩)

theorem recv_line_of_ne_nil {bytes : Bytes} {n : Nat} (h : bytes ≠ [] ∨ n = 0) (broken : Bool) :
    Transport.recv (⟨bytes, broken⟩ : Line) n = (some (bytes.take n), ⟨bytes.drop n, broken⟩) := by
  refine if_neg ?_
  rintro ⟨hnil, -, hn⟩
  rcases h with h | h
  · exact h hnil
  · exact hn h

namespace Prog

variable {σ S α β L : Type}

/-! ## Whole packets -/

/-- A run leaves no more of its input than there was. -/
theorem length_input_le (p : Prog σ S α) (i : Bytes) (t : σ) : (p.run i t).input.length ≤ i.length := by
  induction p generalizing i t with
  | ret a => exact Nat.le_refl _
  | recv n k ih =>
      refine Nat.le_trans (ih _ (i.drop n) t) ?_
      rw [List.length_drop]
      exact Nat.sub_le _ _
  | emit s cs k ih => exact ih i t
  | get k ih => exact ih t i t
  | modify f k ih => exact ih i (f t)
  | exit => exact Nat.le_refl _

/-- **What is taken from the bytes at hand is taken from a line.** A call that asked for more than the packet
    would have got a part of what follows it. -/
theorem Takes.run_line {p : Prog σ S α} {bs : Bytes} {t t' : σ} {r : Option α} {out : List (S × Bytes)}
    (h : p.Takes bs t r t' out) (rest : Bytes) (broken : Bool) :
    p.run (⟨bs ++ rest, broken⟩ : Line) t = ⟨r, ⟨rest, broken⟩, t', out⟩ := by
  induction p generalizing bs t out with
  | ret a =>
      have hrun := h rest
      have hnil := h []
      rw [run_ret, Outcome.mk.injEq] at hrun hnil
      obtain ⟨rfl, -, rfl, rfl⟩ := hrun
      obtain rfl : bs = [] := by simpa using hnil.2.1
      rfl
  | recv n k ih =>
      have hle : n ≤ bs.length := by
        by_contra hlt
        -- the bytes of the packet and `n - bs.length` more
        have hlong : ∀ more : Bytes, more.length = n - bs.length → more = [] := by
          intro more hmore
          have hinput := congrArg (fun o => o.input.length) (h more)
          have hbound := length_input_le (k (some ((bs ++ more).take n))) ((bs ++ more).drop n) t
          rw [List.drop_eq_nil_of_le (by rw [List.length_append]; omega)] at hbound
          have hshort : ((recv n k).run (bs ++ more) t).input.length ≤ 0 := by
            show ((k (some ((bs ++ more).take n))).run ((bs ++ more).drop n) t).input.length ≤ 0
            rw [List.drop_eq_nil_of_le (by rw [List.length_append]; omega)]
            exact hbound
          exact List.eq_nil_of_length_eq_zero (by simp only [] at hinput; omega)
        have hnil := hlong (List.replicate (n - bs.length) 0) List.length_replicate
        have hlen := congrArg List.length hnil
        rw [List.length_replicate, List.length_nil] at hlen
        omega
      have htakes : (k (some (bs.take n))).Takes (bs.drop n) t r t' out := by
        intro more
        have hrun := h more
        show (k (some (bs.take n))).run (bs.drop n ++ more) t = _
        have htake : (bs ++ more).take n = bs.take n := List.take_append_of_le_length hle
        rw [← List.drop_append_of_le_length hle, ← htake]
        exact hrun
      have hne : bs ++ rest ≠ [] ∨ n = 0 := by
        by_cases hn : n = 0
        · exact Or.inr hn
        · refine Or.inl (fun hnil => ?_)
          rw [(List.append_eq_nil_iff.mp hnil).1, List.length_nil] at hle
          omega
      show (k (Transport.recv (⟨bs ++ rest, broken⟩ : Line) n).1).run _ t = _
      rw [recv_line_of_ne_nil hne, List.take_append_of_le_length hle, List.drop_append_of_le_length hle]
      exact ih _ htakes
  | emit s cs k ih =>
      have htakes : k.Takes bs t r t' (k.run bs t).out ∧ out = written s cs ++ (k.run bs t).out := by
        have hrun : ∀ more, (k.run (bs ++ more) t).after (written s cs) = ⟨r, more, t', out⟩ := h
        have hout : ∀ more, out = written s cs ++ (k.run (bs ++ more) t).out :=
          fun more => (congrArg Outcome.out (hrun more)).symm
        have hnil := hout []
        rw [List.append_nil] at hnil
        refine ⟨fun more => ?_, hnil⟩
        have hsame : (k.run (bs ++ more) t).out = (k.run bs t).out :=
          List.append_cancel_left ((hout more).symm.trans hnil)
        have hmore := hrun more
        rw [← hsame]
        generalize k.run (bs ++ more) t = o at hmore
        obtain ⟨r', i', s', out'⟩ := o
        rw [Outcome.after, Outcome.mk.injEq] at hmore
        obtain ⟨rfl, rfl, rfl, -⟩ := hmore
        rfl
      obtain ⟨htakes, hout⟩ := htakes
      show (k.run (⟨bs ++ rest, broken⟩ : Line) t).after (written s cs) = _
      rw [ih htakes, hout]
      rfl
  | get k ih => exact ih t h
  | modify f k ih => exact ih h
  | exit =>
      have hrun := h rest
      have hnil := h []
      rw [run_exit, Outcome.mk.injEq] at hrun hnil
      obtain ⟨rfl, -, rfl, rfl⟩ := hrun
      obtain rfl : bs = [] := by simpa using hnil.2.1
      rfl

/-! ## The round of the incomplete packet -/

/-- Each round takes a packet, until the process ends. -/
def AllTaken (body : L → Prog σ S L) : List (σ → σ) → List Bytes → L → σ → Prop
  | [], [], _, _ => True
  | f :: fs, bs :: rest, l, t => ∃ r t' out, (body l).Takes bs (f t) r t' out ∧
      ∀ l', r = some l' → AllTaken body fs rest l' t'
  | _, _, _, _ => False

section Harmless

variable {κ : Type} [DecidableEq S]

/-- The round writes nothing to `dest`, and leaves what `view` sees of the state as it is. -/
def Harmless (dest : S) (view : σ → κ) (p : Prog σ S α) (i : Line) (t : σ) : Prop :=
  stream dest (p.run i t).out = [] ∧ view (p.run i t).state = view t

/-- **Nothing is invented**: the rounds of some packets and of the part of one more write to `dest` what the
    packets alone make them write, and the part changes nothing of the state. Before its round the other
    threads do `f`. -/
def NothingInvented (body : L → Prog σ S L) (dest : S) (view : σ → κ) (fs : List (σ → σ)) (f : σ → σ) (l : L)
    (packets : List Bytes) (part : Bytes) (broken : Bool) (t : σ) : Prop :=
  let complete := (rounds body fs l).run (⟨packets.flatten, broken⟩ : Line) t
  let whole := (rounds body (fs ++ [f]) l).run (⟨packets.flatten ++ part, broken⟩ : Line) t
  stream dest whole.out = stream dest complete.out ∧
    (complete.result ≠ none → view whole.state = view (f complete.state))

/-- **Only the round of the incomplete packet matters.** -/
theorem nothingInvented_iff {body : L → Prog σ S L} {dest : S} {view : σ → κ} {fs : List (σ → σ)} {f : σ → σ}
    {l : L} {packets : List Bytes} {part : Bytes} {broken : Bool} {t : σ} (h : AllTaken body fs packets l t) :
    NothingInvented body dest view fs f l packets part broken t ↔
      ∀ l' i' t' out, (rounds body fs l).run packets.flatten t = ⟨some l', i', t', out⟩ →
        Harmless dest view (body l') ⟨part, broken⟩ (f t') := by
  induction packets generalizing fs l t with
  | nil =>
      cases fs with
      | cons g fs => exact absurd h id
      | nil =>
          unfold NothingInvented Harmless
          simp only [List.flatten_nil, List.nil_append, run_rounds_nil, run_rounds_one, stream_nil]
          constructor
          · rintro ⟨hout, hview⟩ l' i' t' out hrun
            cases hrun
            exact ⟨hout, hview (by simp)⟩
          · intro hall
            obtain ⟨hout, hview⟩ := hall l [] t [] rfl
            exact ⟨hout, fun _ => hview⟩
  | cons bs packets ih =>
      cases fs with
      | nil => exact absurd h id
      | cons g fs =>
          obtain ⟨r, t₁, out₁, htakes, hnext⟩ := h
          have hcomplete : (rounds body (g :: fs) l).run (⟨(bs :: packets).flatten, broken⟩ : Line) t =
              andThen ⟨r, ⟨packets.flatten, broken⟩, t₁, out₁⟩ (rounds body fs) := by
            rw [run_rounds_cons, List.flatten_cons, htakes.run_line]
          have hwhole : (rounds body (g :: fs ++ [f]) l).run (⟨(bs :: packets).flatten ++ part, broken⟩ : Line) t =
              andThen ⟨r, ⟨packets.flatten ++ part, broken⟩, t₁, out₁⟩ (rounds body (fs ++ [f])) := by
            rw [List.cons_append, run_rounds_cons, List.flatten_cons, List.append_assoc, htakes.run_line]
          have hbytes : (rounds body (g :: fs) l).run (bs :: packets).flatten t =
              andThen ⟨r, packets.flatten, t₁, out₁⟩ (rounds body fs) := by
            rw [run_rounds_cons, List.flatten_cons, htakes]
          unfold NothingInvented
          rw [hcomplete, hwhole, hbytes]
          cases r with
          | none =>
              -- the process has ended: there is no round of the incomplete packet
              constructor
              · intro _ l' i' t' out hrun
                exact absurd (congrArg Outcome.result hrun) (by simp [andThen])
              · exact fun _ => ⟨rfl, fun hne => absurd rfl hne⟩
          | some l₁ =>
              have htail := ih (hnext l₁ rfl)
              unfold NothingInvented at htail
              simp only [andThen, Outcome.after_out, stream_append, Outcome.after_result, Outcome.after_state,
                List.append_cancel_left_eq]
              rw [htail]
              constructor
              · intro hall l' i' t' out hrun
                refine hall l' i' t' (((rounds body fs l₁).run packets.flatten t₁).out) ?_
                generalize (rounds body fs l₁).run packets.flatten t₁ = o at hrun
                obtain ⟨r', j, s, out'⟩ := o
                rw [Outcome.after, Outcome.mk.injEq] at hrun
                obtain ⟨rfl, rfl, rfl, -⟩ := hrun
                rfl
              · intro hall l' i' t' out hrun
                exact hall l' i' t' (out₁ ++ out) (by rw [hrun]; rfl)

/-- A tame program that writes nothing to `dest` and keeps what `view` sees. -/
theorem harmless_of_tame {dest : S} {view : σ → κ} {blur : σ → σ} {p : Prog σ S α}
    (h : p.Tame view blur fun s _ => s ≠ dest) (i : Line) (t : σ) : Harmless dest view p i t := by
  refine ⟨?_, h.run_kept i t⟩
  have hnone : sentTo dest (p.sent i t) = [] := by
    unfold sentTo
    rw [List.map_eq_nil_iff, List.filter_eq_nil_iff]
    intro e he
    simpa using h.emits.sent i t e he
  rw [stream_run, hnone, List.flatten_nil]

/-- Every packet of the run is good at its moment. -/
def GoodRun {P : Type} (good : L → σ → P → Prop) (body : L → Prog σ S L) (bytes : P → Bytes) :
    List (σ → σ) → L → List P → σ → Prop
  | f :: fs, l, p :: ps, t => good l (f t) p ∧ ∀ l' t' out,
      (body l).Takes (bytes p) (f t) (some l') t' out → GoodRun good body bytes fs l' ps t'
  | _, _, _, _ => True

omit [DecidableEq S] in
/-- If good packets are taken, then in a good run all packets but the last are, and the last one is good when its
    turn comes. -/
theorem goodRun_snoc {P : Type} {good : L → σ → P → Prop} {body : L → Prog σ S L} {bytes : P → Bytes}
    (hgood : ∀ l t p, good l t p → ∃ r t' out, (body l).Takes (bytes p) t r t' out) {fs : List (σ → σ)} {f : σ → σ}
    {ps : List P} {p : P} (hlen : fs.length = ps.length) {l : L} {t : σ}
    (h : GoodRun good body bytes (fs ++ [f]) l (ps ++ [p]) t) :
    AllTaken body fs (ps.map bytes) l t ∧ ∀ l' i' t' out,
      (rounds body fs l).run (ps.map bytes).flatten t = ⟨some l', i', t', out⟩ → good l' (f t') p := by
  -- each packet before the last one is taken whole, so the last one finds a line at its beginning
  induction ps generalizing fs l t with
  | nil =>
      obtain rfl : fs = [] := List.eq_nil_of_length_eq_zero hlen
      refine ⟨trivial, fun l' i' t' out hrun => ?_⟩
      cases hrun
      exact h.1
  | cons q ps ih =>
      obtain ⟨g, fs, rfl⟩ := List.exists_cons_of_length_eq_add_one hlen
      obtain ⟨r, t₁, out₁, htakes⟩ := hgood l (g t) q h.1
      have hrun : (rounds body (g :: fs) l).run ((q :: ps).map bytes).flatten t =
          andThen ⟨r, (ps.map bytes).flatten, t₁, out₁⟩ (rounds body fs) := by
        rw [run_rounds_cons, List.map_cons, List.flatten_cons, htakes]
      cases r with
      | none =>
          refine ⟨⟨none, t₁, out₁, htakes, fun l' hl' => absurd hl' (by simp)⟩, fun l' i' t' out hend => ?_⟩
          rw [hrun] at hend
          exact absurd (congrArg Outcome.result hend) (by simp [andThen])
      | some l₁ =>
          obtain ⟨hall, hlast⟩ := ih (by simpa using hlen) (h.2 l₁ t₁ out₁ htakes)
          refine ⟨⟨some l₁, t₁, out₁, htakes, fun l' hl' => Option.some.inj hl' ▸ hall⟩, fun l' i' t' out hend => ?_⟩
          rw [hrun] at hend
          refine hlast l' i' t' (((rounds body fs l₁).run (ps.map bytes).flatten t₁).out) ?_
          change ((rounds body fs l₁).run (ps.map bytes).flatten t₁).after out₁ = _ at hend
          generalize (rounds body fs l₁).run (ps.map bytes).flatten t₁ = o at hend
          obtain ⟨r', j, s, out'⟩ := o
          rw [Outcome.after, Outcome.mk.injEq] at hend
          obtain ⟨rfl, rfl, rfl, -⟩ := hend
          rfl

end Harmless

/-! ## Programs that write -/

/-- Whatever it receives and reads, the program writes at least a byte to `s`. -/
def Speaks (s : S) : Prog σ S α → Prop
  | ret _ => False
  | recv _ k => ∀ r, (k r).Speaks s
  | emit s' cs k => s' = s ∧ cs.flatMap Call.bytes ≠ [] ∨ k.Speaks s
  | get k => ∀ t, (k t).Speaks s
  | modify _ k => k.Speaks s
  | exit => False

/-- The program does not end the process. -/
def GoesOn : Prog σ S α → Prop
  | ret _ => True
  | recv _ k => ∀ r, (k r).GoesOn
  | emit _ _ k => k.GoesOn
  | get k => ∀ t, (k t).GoesOn
  | modify _ k => k.GoesOn
  | exit => False

section Speaks

variable {s : S}

theorem Speaks.run [DecidableEq S] {T : Type} [Transport T] {p : Prog σ S α} (h : p.Speaks s) (i : T) (t : σ) :
    stream s (p.run i t).out ≠ [] := by
  induction p generalizing i t with
  | ret a => exact absurd h id
  | recv n k ih => exact ih _ (h _) _ t
  | emit s' cs k ih =>
      show stream s (written s' cs ++ (k.run i t).out) ≠ []
      rw [stream_append]
      rcases h with ⟨rfl, hne⟩ | h
      · rw [stream_written]
        exact fun hnil => hne (List.append_eq_nil_iff.mp hnil).1
      · exact fun hnil => ih h i t (List.append_eq_nil_iff.mp hnil).2
  | get k ih => exact ih t (h t) i t
  | modify f k ih => exact ih h i (f t)
  | exit => exact absurd h id

theorem Speaks.bind {p : Prog σ S α} {f : α → Prog σ S β} (h : p.Speaks s) : (p >>= f).Speaks s := by
  rw [bind_eq]
  induction p with
  | ret a => exact absurd h id
  | recv n k ih => exact fun r => ih r (h r)
  | emit s' cs k ih => exact h.imp id ih
  | get k ih => exact fun t => ih t (h t)
  | modify g k ih => exact ih h
  | exit => exact absurd h id

theorem GoesOn.bind {p : Prog σ S α} {f : α → Prog σ S β} (hp : p.GoesOn) (hf : ∀ a, (f a).GoesOn) :
    (p >>= f).GoesOn := by
  rw [bind_eq]
  induction p with
  | ret a => exact hf a
  | recv n k ih => exact fun r => ih r (hp r)
  | emit s cs k ih => exact ih hp
  | get k ih => exact fun t => ih t (hp t)
  | modify g k ih => exact ih hp
  | exit => exact absurd hp id

theorem GoesOn.bind_speaks {p : Prog σ S α} {f : α → Prog σ S β} (hp : p.GoesOn) (hf : ∀ a, (f a).Speaks s) :
    (p >>= f).Speaks s := by
  rw [bind_eq]
  induction p with
  | ret a => exact hf a
  | recv n k ih => exact fun r => ih r (hp r)
  | emit s' cs k ih => exact Or.inr (ih hp)
  | get k ih => exact fun t => ih t (hp t)
  | modify g k ih => exact ih hp
  | exit => exact absurd hp id

theorem Speaks.packet {cs : List Call} (h : cs.flatMap Call.bytes ≠ []) :
    (Prog.packet s cs : Prog σ S Unit).Speaks s := Or.inl ⟨rfl, h⟩

theorem Speaks.update_bind {f : σ → σ} {g : Unit → Prog σ S β} (h : (g ()).Speaks s) :
    (Prog.update f >>= g).Speaks s := h

theorem Speaks.getState_bind {f : σ → Prog σ S β} (h : ∀ t, (f t).Speaks s) : (getState >>= f).Speaks s := h

theorem Speaks.ite {c : Prop} [Decidable c] {p q : Prog σ S α} (hp : p.Speaks s) (hq : q.Speaks s) :
    (if c then p else q).Speaks s := by
  by_cases hc : c
  · rw [if_pos hc]
    exact hp
  · rw [if_neg hc]
    exact hq

theorem Speaks.not_harmless [DecidableEq S] {κ : Type} {dest : S} {view : σ → κ} {p : Prog σ S α}
    (h : p.Speaks dest) (i : Line) (t : σ) :
    ¬ Harmless dest view p i t := fun hh => h.run i t hh.1

end Speaks

end Prog

end Wire
