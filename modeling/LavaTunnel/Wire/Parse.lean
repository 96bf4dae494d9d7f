import LavaTunnel.Wire.Steady

/-!
# `Wire.Parse` — loops that read a packet id a round

A round reads an id and then the packet behind it. `Grammar` says which ids the loop knows and which packets
are complete, `Precedes` what can stand before an id: a complete packet, an id the loop does not know, or a
packet whose fields were cut by the segments. `Grammar.parses` goes from the rounds to the run.

A program that leaves bytes behind has not seen the end of the stream (`run_more`), so it has read as much as
it would have read of a longer one.
-/

namespace Wire.Prog

variable {σ S α L : Type}

/-! ## Input that is left over -/

/-- What a run leaves is the end of what it got. -/
theorem run_input_suffix (p : Prog σ S α) (i : Bytes) (t : σ) : ∃ read, i = read ++ (p.run i t).input := by
  induction p generalizing i t with
  | ret a => exact ⟨[], rfl⟩
  | recv n k ih =>
      obtain ⟨read, hread⟩ := ih (some (i.take n)) (i.drop n) t
      refine ⟨i.take n ++ read, ?_⟩
      show i = i.take n ++ read ++ ((k (some (i.take n))).run (i.drop n) t).input
      rw [List.append_assoc, ← hread, List.take_append_drop]
  | emit s cs k ih => exact ih i t
  | get k ih => exact ih t i t
  | modify f k ih => exact ih i (f t)
  | exit => exact ⟨[], rfl⟩

/-- **A run that leaves input does the same with more of it.** -/
theorem run_more (p : Prog σ S α) {i : Bytes} {t : σ} (h : (p.run i t).input ≠ []) (more : Bytes) :
    p.run (i ++ more) t = { p.run i t with input := (p.run i t).input ++ more } := by
  induction p generalizing i t with
  | ret a => rfl
  | recv n k ih =>
      -- some input is left, so that this call got all it asked for
      have hle : n ≤ i.length := by
        by_contra hlt
        obtain ⟨read, hread⟩ := run_input_suffix (k (some (i.take n))) (i.drop n) t
        rw [List.drop_eq_nil_of_le (by omega)] at hread
        have hnil := (List.append_eq_nil_iff.mp hread.symm).2
        rw [show ((recv n k).run i t).input = ((k (some (i.take n))).run (i.drop n) t).input from rfl,
          List.drop_eq_nil_of_le (show i.length ≤ n by omega)] at h
        exact h hnil
      show (k (some ((i ++ more).take n))).run ((i ++ more).drop n) t = _
      rw [List.take_append_of_le_length hle, List.drop_append_of_le_length hle]
      exact ih (some (i.take n)) h
  | emit s cs k ih =>
      show ((k.run (i ++ more) t).after _) = _
      rw [ih h]
      rfl
  | get k ih => exact ih t h
  | modify f k ih => exact ih h
  | exit => rfl

/-- What takes a payload from every stream that starts with it, and has left something, has taken it. -/
theorem Takes.of_leftover {p : Prog σ S α} {payload i more tail : Bytes} {t t' : σ} {r : Option α}
    {out : List (S × Bytes)} (hp : p.Takes payload t r t' out) (hi : i ++ more = payload ++ tail)
    (h : (p.run i t).input ≠ []) : i = payload ++ (p.run i t).input := by
  have hmore := run_more p h more
  rw [hi, hp tail] at hmore
  have htail : tail = (p.run i t).input ++ more := congrArg Outcome.input hmore
  rw [htail, ← List.append_assoc] at hi
  exact List.append_cancel_right hi

/-! ## The moments of a loop -/

section Loop

variable {T : Type} [Transport T]

/-- The loop after `k` rounds. -/
def moment (body : L → Prog σ S L) (fs : List (σ → σ)) (l : L) (i : T) (t : σ) (k : Nat) : Outcome σ S T L :=
  (rounds body (fs.take k) l).run i t

/-- Rounds and more rounds. -/
theorem rounds_append (body : L → Prog σ S L) (fs gs : List (σ → σ)) (l : L) :
    rounds body (fs ++ gs) l = rounds body fs l >>= rounds body gs := by
  induction fs generalizing l with
  | nil => rfl
  | cons f fs ih =>
      simp only [List.cons_append, rounds]
      rw [bind_assoc']
      refine congrArg (update f >>= ·) (funext fun _ => ?_)
      rw [bind_assoc']
      exact congrArg (body l >>= ·) (funext ih)

/-- One round more. -/
theorem moment_succ (body : L → Prog σ S L) {fs : List (σ → σ)} {l l' : L} {i : T} {t : σ} {k : Nat}
    (hk : k < fs.length) (h : (moment body fs l i t k).result = some l') :
    moment body fs l i t (k + 1) =
      ((body l').run (moment body fs l i t k).input (fs[k] (moment body fs l i t k).state)).after
        (moment body fs l i t k).out := by
  have hsucc : moment body fs l i t (k + 1) = andThen (moment body fs l i t k) (rounds body [fs[k]]) := by
    unfold moment
    rw [List.take_succ_eq_append_getElem hk, rounds_append, run_bind]
  rw [hsucc, andThen, h]
  show ((rounds body [fs[k]] l').run _ _).after _ = _
  rw [run_rounds_one]

/-- A loop that has ended makes no more rounds. -/
theorem moment_ended (body : L → Prog σ S L) {fs : List (σ → σ)} {l : L} {i : T} {t : σ} {k : Nat}
    (hk : k < fs.length) (h : (moment body fs l i t k).result = none) :
    (moment body fs l i t (k + 1)).result = none := by
  unfold moment at h ⊢
  rw [List.take_succ_eq_append_getElem hk, rounds_append, run_bind, andThen, h]

end Loop

/-! ## What stands before an id -/

section Grammar

/-- The packets a loop is written for: the ids it knows, the payloads that are complete in the state a round
    finds, and the ids whose packets depend on the segments. -/
structure Grammar (σ L : Type) where
  known : L → UInt8 → Prop
  complete : σ → L → UInt8 → Bytes → Prop
  sees : List UInt8

variable {T : Type} [Transport T] [Delivers T]

/-- The loop goes on with the locals `l`, and reads the byte `id` as the next id. -/
structure ReadsId (o : Outcome σ S T L) (l : L) (id : UInt8) (rest : Bytes) : Prop where
  result : o.result = some l
  bytes : Delivers.bytes o.input = id :: rest

/-- What the round from `o` has read, with `next` behind it. The other threads have done `f`. -/
inductive Grammar.Precedes (g : Grammar σ L) (body : L → Prog σ S L) (f : σ → σ) (o : Outcome σ S T L)
    (next : Bytes) : Prop where
  | packet {l : L} {id : UInt8} {payload : Bytes} (reads : ReadsId o l id (payload ++ next))
      (known : g.known l id) (complete : g.complete (f o.state) l id payload)
  | unknown {l : L} {id : UInt8} (reads : ReadsId o l id next) (unknown : ¬ g.known l id)
  | cut {l : L} {id : UInt8} {rest : Bytes} (reads : ReadsId o l id rest) (sees : id ∈ g.sees)
      (differs : ((body l).run o.input (f o.state)).onBytes ≠ (body l).run (id :: rest) (f o.state))

/-- **The loop parses its stream**: every byte it reads as an id is the first one, or stands behind what
    `Precedes` says, and an id it does not know is skipped alone. -/
structure Grammar.Parses (g : Grammar σ L) (body : L → Prog σ S L) (fs : List (σ → σ)) (l : L) (i : T) (t : σ) :
    Prop where
  precedes : ∀ k (hk : k < fs.length) l' id rest, ReadsId (moment body fs l i t (k + 1)) l' id rest →
    g.Precedes body fs[k] (moment body fs l i t k) (id :: rest)
  skips : ∀ k (hk : k < fs.length) l' id rest, ReadsId (moment body fs l i t k) l' id rest → ¬ g.known l' id →
    (moment body fs l i t (k + 1)).onBytes =
      ⟨some l', rest, fs[k] (moment body fs l i t k).state, (moment body fs l i t k).out⟩

/-- What the rounds of a loop have to do for that. -/
structure Grammar.Rounds (g : Grammar σ L) (body : L → Prog σ S L) : Prop where
  takes : ∀ l t id rest, g.known l id → ((body l).run (id :: rest) t).result ≠ none →
    ((body l).run (id :: rest) t).input ≠ [] →
      ∃ payload, rest = payload ++ ((body l).run (id :: rest) t).input ∧ g.complete t l id payload
  skips : ∀ {T : Type} [Transport T] [Delivers T] l t id rest (i : T), Delivers.bytes i = id :: rest →
    ¬ g.known l id → ((body l).run i t).onBytes = ⟨some l, rest, t, []⟩
  whole : ∀ {T : Type} [Transport T] [Delivers T] l t id rest (i : T), Delivers.bytes i = id :: rest →
    id ∉ g.sees → ((body l).run i t).onBytes = (body l).run (id :: rest) t
  ends : ∀ {T : Type} [Transport T] [Delivers T] l t (i : T), Delivers.bytes i = [] →
    ((body l).run i t).result = none

/-- **From the rounds to the run.** -/
theorem Grammar.Rounds.parses {g : Grammar σ L} {body : L → Prog σ S L} (h : g.Rounds body) (fs : List (σ → σ))
    (l : L) (i : T) (t : σ) : g.Parses body fs l i t := by
  constructor
  · intro k hk l' id rest hreads
    cases hres : (moment body fs l i t k).result with
    | none => exact absurd ((moment_ended body hk hres).symm.trans hreads.result) (by simp)
    | some l₀ =>
        have hsucc := moment_succ body hk hres
        generalize moment body fs l i t k = o at hres hsucc ⊢
        rw [hsucc] at hreads
        obtain ⟨hresult, hbytes⟩ := hreads
        rw [Outcome.after_result] at hresult
        rw [Outcome.after_input] at hbytes
        cases hi : Delivers.bytes o.input with
        | nil =>
            -- at the end of the stream the loop is left
            rw [h.ends l₀ _ _ hi] at hresult
            exact absurd hresult (by simp)
        | cons id₀ rest₀ =>
            have hread : ReadsId o l₀ id₀ rest₀ := ⟨hres, hi⟩
            by_cases hknown : g.known l₀ id₀
            · by_cases hsame : ((body l₀).run o.input (fs[k] o.state)).onBytes =
                (body l₀).run (id₀ :: rest₀) (fs[k] o.state)
              · have hinput : ((body l₀).run (id₀ :: rest₀) (fs[k] o.state)).input = id :: rest := by
                  rw [← hsame]
                  exact hbytes
                have hgoes : ((body l₀).run (id₀ :: rest₀) (fs[k] o.state)).result = some l' := by
                  rw [← hsame]
                  exact hresult
                obtain ⟨payload, hpayload, hcomplete⟩ := h.takes l₀ (fs[k] o.state) id₀ rest₀ hknown
                  (by simp [hgoes]) (by simp [hinput])
                rw [hinput] at hpayload
                exact .packet ⟨hres, by rw [hi, hpayload]⟩ hknown hcomplete
              · have hsees : id₀ ∈ g.sees := by
                  by_contra hnot
                  exact hsame (h.whole l₀ _ id₀ rest₀ o.input hi hnot)
                exact .cut hread hsees hsame
            · have hskip := h.skips l₀ (fs[k] o.state) id₀ rest₀ o.input hi hknown
              have hrest : Delivers.bytes ((body l₀).run o.input (fs[k] o.state)).input = rest₀ :=
                congrArg Outcome.input hskip
              rw [← hbytes, hrest]
              exact .unknown hread hknown
  · intro k hk l' id rest hreads hunknown
    have hskip := h.skips l' (fs[k] (moment body fs l i t k).state) id rest _ hreads.bytes hunknown
    rw [moment_succ body hk hreads.result, Outcome.onBytes_after, hskip]
    simp [Outcome.after]

end Grammar

end Wire.Prog
