import Mathlib.Data.List.Basic

/-!
# `Wire.Prog` — socket programs over a shared state

A thread of a network program is a tree of the calls it makes: `recv` on its socket, the `send`s of one
packet, a read or a write of the state the threads share, or the end of the process. The tree fixes what
the thread does and leaves open what the world answers, so one program has several meanings:

* `Prog.run` — alone, over any `Transport` (the bytes at hand, or a list of segments);
* `Wire.Interleave` — as one of several threads, a call at a time.

Nothing here knows a protocol: the state `σ` and the sockets `S` are parameters.
-/

namespace Wire

/-- What travels over a socket. -/
abbrev Bytes := List UInt8

/-- A byte that does not occur is told from all that do. -/
theorem forall_ne_of_notMem {k : UInt8} {bs : Bytes} (h : k ∉ bs) : ∀ b ∈ bs, decide (b ≠ k) = true := by
  intro b hb
  apply decide_eq_true
  intro hbk
  exact h (hbk ▸ hb)

/-- One outgoing call. `sendW` is the wrapper that repeats `send` until everything is gone. -/
inductive Call where
  | send (bs : Bytes)
  | sendW (bs : Bytes)
deriving DecidableEq

/-- The bytes a call is asked to send. -/
def Call.bytes : Call → Bytes
  | .send bs => bs
  | .sendW bs => bs

@[simp] theorem Call.bytes_send (bs : Bytes) : (Call.send bs).bytes = bs := rfl

@[simp] theorem Call.bytes_sendW (bs : Bytes) : (Call.sendW bs).bytes = bs := rfl

/-- A socket program with result `α`.

* `recv n k` — one `recv` of at most `n` bytes; `none` is a socket error, `some []` a closed socket;
* `emit s calls k` — the consecutive calls that write one packet to `s`;
* `get`, `modify` — one access to the shared state;
* `exit` — the process ends. -/
inductive Prog (σ S α : Type) where
  | ret (a : α)
  | recv (n : Nat) (k : Option Bytes → Prog σ S α)
  | emit (s : S) (calls : List Call) (k : Prog σ S α)
  | get (k : σ → Prog σ S α)
  | modify (f : σ → σ) (k : Prog σ S α)
  | exit

namespace Prog

variable {σ S α β γ : Type}

/-- Sequencing. -/
def bind : Prog σ S α → (α → Prog σ S β) → Prog σ S β
  | ret a, f => f a
  | recv n k, f => recv n (fun r => (k r).bind f)
  | emit s cs k, f => emit s cs (k.bind f)
  | get k, f => get (fun t => (k t).bind f)
  | modify g k, f => modify g (k.bind f)
  | exit, _ => exit

instance : Monad (Prog σ S) where
  pure := ret
  bind := bind

theorem bind_eq (p : Prog σ S α) (f : α → Prog σ S β) : p >>= f = p.bind f := rfl

/-! ## The single calls, as programs -/

/-- One `recv` of at most `n` bytes. -/
def recvCall (n : Nat) : Prog σ S (Option Bytes) := recv n ret

/-- The calls that write one packet. -/
def packet (s : S) (calls : List Call) : Prog σ S Unit := emit s calls (ret ())

/-- Read the shared state. -/
def getState : Prog σ S σ := get ret

/-- Update the shared state. -/
def update (f : σ → σ) : Prog σ S Unit := modify f (ret ())

/-- Run `p` if the condition holds. -/
def onlyIf (c : Prop) [Decidable c] (p : Prog σ S Unit) : Prog σ S Unit := if c then p else ret ()

/-- Run `body` on every member of the list. -/
def forEach (body : β → Prog σ S Unit) : List β → Prog σ S Unit
  | [] => ret ()
  | b :: bs => do
      body b
      forEach body bs

/-- The rounds of an endless loop, one for each member of the list. Before each round the other threads
    may change the shared state: `f` is what they do to it. -/
def rounds {L : Type} (body : L → Prog σ S L) : List (σ → σ) → L → Prog σ S L
  | [], l => ret l
  | f :: fs, l => do
      update f
      let l' ← body l
      rounds body fs l'

end Prog

/-! ## Running alone -/

/-- How a socket answers one `recv` call, and what is left of it. -/
class Transport (T : Type) where
  recv : T → Nat → Option Bytes × T

/-- The bytes at hand: a call gets everything it asks for while they last. -/
instance : Transport Bytes where
  recv i n := (some (i.take n), i.drop n)

/-- A transport that delivers a stream: what a call returns and what it leaves are the stream, a call
    returns no more than it was asked for, and at least one byte while any are left. -/
class Delivers (T : Type) [Transport T] where
  bytes : T → Bytes
  recv_bytes : ∀ i n, ∃ p, (Transport.recv i n).1 = some p ∧ p ++ bytes (Transport.recv i n).2 = bytes i
    ∧ p.length ≤ n ∧ (0 < n → bytes i ≠ [] → p ≠ [])

instance : Delivers Bytes where
  bytes := id
  recv_bytes i n := by
    refine ⟨i.take n, rfl, List.take_append_drop n i, List.length_take_le n i, fun hn hi => ?_⟩
    rw [ne_eq, List.take_eq_nil_iff]
    rintro (h | h)
    · omega
    · exact hi h

/-- What a run leaves behind. `result` is `none` once the process has ended. -/
structure Outcome (σ S T α : Type) where
  result : Option α
  input : T
  state : σ
  out : List (S × Bytes)

namespace Outcome

variable {σ S T α : Type}

/-- The outcome of a run that wrote `pre` before it came here. -/
def after (pre : List (S × Bytes)) (o : Outcome σ S T α) : Outcome σ S T α :=
  { o with out := pre ++ o.out }

@[simp] theorem after_result (pre : List (S × Bytes)) (o : Outcome σ S T α) :
    (o.after pre).result = o.result := rfl

@[simp] theorem after_input (pre : List (S × Bytes)) (o : Outcome σ S T α) :
    (o.after pre).input = o.input := rfl

@[simp] theorem after_state (pre : List (S × Bytes)) (o : Outcome σ S T α) :
    (o.after pre).state = o.state := rfl

@[simp] theorem after_out (pre : List (S × Bytes)) (o : Outcome σ S T α) :
    (o.after pre).out = pre ++ o.out := rfl

@[simp] theorem after_nil (o : Outcome σ S T α) : o.after [] = o := rfl

theorem after_after (p q : List (S × Bytes)) (o : Outcome σ S T α) :
    (o.after q).after p = o.after (p ++ q) := by
  simp only [after, List.append_assoc]

end Outcome

/-- The bytes written to socket `s`, in order. -/
def stream {S : Type} [DecidableEq S] (s : S) (out : List (S × Bytes)) : Bytes :=
  out.flatMap (fun e => if e.1 = s then e.2 else [])

section Stream

variable {S : Type} [DecidableEq S] (s : S)

@[simp] theorem stream_nil : stream s [] = [] := rfl

@[simp] theorem stream_cons (e : S × Bytes) (out : List (S × Bytes)) :
    stream s (e :: out) = (if e.1 = s then e.2 else []) ++ stream s out := rfl

@[simp] theorem stream_append (o o' : List (S × Bytes)) :
    stream s (o ++ o') = stream s o ++ stream s o' := by
  simp [stream]

end Stream

/-- What the calls of one packet write to `s`. -/
def written {S : Type} (s : S) (calls : List Call) : List (S × Bytes) :=
  calls.map (fun c => (s, c.bytes))

/-- A packet's calls write their bytes one after the other. -/
theorem stream_written {S : Type} [DecidableEq S] (s : S) (calls : List Call) :
    stream s (written s calls) = calls.flatMap Call.bytes := by
  simp [stream, written, List.flatMap_map]

/-- A packet written to one socket leaves the other alone. -/
theorem stream_written_ne {S : Type} [DecidableEq S] {s s' : S} (h : s' ≠ s) (calls : List Call) :
    stream s (written s' calls) = [] := by
  simp [stream, written, List.flatMap_map, h]

namespace Prog

variable {σ S T α β : Type} [Transport T]

/-- Run a program alone. -/
def run : Prog σ S α → T → σ → Outcome σ S T α
  | ret a, i, t => ⟨some a, i, t, []⟩
  | recv n k, i, t => (k (Transport.recv i n).1).run (Transport.recv i n).2 t
  | emit s cs k, i, t => (k.run i t).after (written s cs)
  | get k, i, t => (k t).run i t
  | modify f k, i, t => k.run i (f t)
  | exit, i, t => ⟨none, i, t, []⟩

/-- What is left when `f` goes on where the run of `o` stopped. -/
def andThen (o : Outcome σ S T α) (f : α → Prog σ S β) : Outcome σ S T β :=
  match o.result with
  | none => ⟨none, o.input, o.state, o.out⟩
  | some a => ((f a).run o.input o.state).after o.out

theorem andThen_after (pre : List (S × Bytes)) (o : Outcome σ S T α) (f : α → Prog σ S β) :
    andThen (o.after pre) f = (andThen o f).after pre := by
  unfold andThen
  cases h : o.result with
  | none => simp [h, Outcome.after]
  | some a => simp [h, Outcome.after_after]

/-- **Running in sequence.** -/
theorem run_bind (p : Prog σ S α) (f : α → Prog σ S β) (i : T) (t : σ) :
    (p >>= f).run i t = andThen (p.run i t) f := by
  rw [bind_eq]
  induction p generalizing i t with
  | ret a => rfl
  | recv n k ih => exact ih _ _ _
  | emit s cs k ih =>
      simp only [bind, run, ih]
      rw [andThen_after]
  | get k ih => exact ih _ _ _
  | modify g k ih => exact ih _ _
  | exit => rfl

/-- Running in sequence, when the outcome of the first part is known. -/
theorem run_bind_of {p : Prog σ S α} {i i' : T} {t t' : σ} {a : α} {out : List (S × Bytes)}
    (h : p.run i t = ⟨some a, i', t', out⟩) (f : α → Prog σ S β) :
    (p >>= f).run i t = ((f a).run i' t').after out := by
  rw [run_bind, h]
  rfl

/-- Nothing follows the end of the process. -/
theorem run_bind_none {p : Prog σ S α} {i i' : T} {t t' : σ} {out : List (S × Bytes)}
    (h : p.run i t = ⟨none, i', t', out⟩) (f : α → Prog σ S β) :
    (p >>= f).run i t = ⟨none, i', t', out⟩ := by
  rw [run_bind, h]
  rfl

/-- A result that is only renamed. -/
theorem run_bind_pure (p : Prog σ S α) (g : α → β) (i : T) (t : σ) :
    (do let a ← p; pure (g a) : Prog σ S β).run i t =
      ⟨(p.run i t).result.map g, (p.run i t).input, (p.run i t).state, (p.run i t).out⟩ := by
  rw [run_bind]
  unfold andThen
  cases (p.run i t).result with
  | none => rfl
  | some a => exact congrArg (Outcome.mk (some (g a)) _ _) (List.append_nil _)

@[simp] theorem run_ret (a : α) (i : T) (t : σ) :
    (ret a : Prog σ S α).run i t = ⟨some a, i, t, []⟩ := rfl

@[simp] theorem run_pure (a : α) (i : T) (t : σ) :
    (pure a : Prog σ S α).run i t = ⟨some a, i, t, []⟩ := rfl

@[simp] theorem run_exit (i : T) (t : σ) : (exit : Prog σ S α).run i t = ⟨none, i, t, []⟩ := rfl

@[simp] theorem run_packet (s : S) (cs : List Call) (i : T) (t : σ) :
    (packet s cs : Prog σ S Unit).run i t = ⟨some (), i, t, written s cs⟩ := by
  simp [packet, run, Outcome.after]

@[simp] theorem run_packet_bind (s : S) (cs : List Call) (f : Unit → Prog σ S β) (i : T) (t : σ) :
    (packet s cs >>= f).run i t = ((f ()).run i t).after (written s cs) := rfl

@[simp] theorem run_getState_bind (f : σ → Prog σ S β) (i : T) (t : σ) :
    (getState >>= f).run i t = (f t).run i t := rfl

@[simp] theorem run_update (g : σ → σ) (i : T) (t : σ) :
    (update g : Prog σ S Unit).run i t = ⟨some (), i, g t, []⟩ := rfl

@[simp] theorem run_update_bind (g : σ → σ) (f : Unit → Prog σ S β) (i : T) (t : σ) :
    (update g >>= f).run i t = (f ()).run i (g t) := rfl

@[simp] theorem run_recvCall_bind (n : Nat) (f : Option Bytes → Prog σ S β) (i : T) (t : σ) :
    (recvCall n >>= f).run i t = (f (Transport.recv i n).1).run (Transport.recv i n).2 t := rfl

@[simp] theorem run_exit_bind (f : α → Prog σ S β) (i : T) (t : σ) :
    ((exit : Prog σ S α) >>= f).run i t = ⟨none, i, t, []⟩ := rfl

@[simp] theorem run_ret_bind (a : α) (f : α → Prog σ S β) (i : T) (t : σ) :
    ((ret a : Prog σ S α) >>= f).run i t = (f a).run i t := rfl

@[simp] theorem run_pure_bind (a : α) (f : α → Prog σ S β) (i : T) (t : σ) :
    ((pure a : Prog σ S α) >>= f).run i t = (f a).run i t := rfl

theorem onlyIf_pos {c : Prop} [Decidable c] (h : c) (p : Prog σ S Unit) : onlyIf c p = p := if_pos h

theorem onlyIf_neg {c : Prop} [Decidable c] (h : ¬ c) (p : Prog σ S Unit) : onlyIf c p = pure () :=
  if_neg h

/-- Sequencing is associative. -/
theorem bind_assoc' {γ : Type} (p : Prog σ S α) (f : α → Prog σ S β) (g : β → Prog σ S γ) :
    (p >>= f) >>= g = p >>= fun a => f a >>= g := by
  simp only [bind_eq]
  induction p with
  | ret a => rfl
  | recv n k ih => simp only [bind, ih]
  | emit s cs k ih => simp only [bind, ih]
  | get k ih => simp only [bind, ih]
  | modify h k ih => simp only [bind, ih]
  | exit => rfl

theorem bind_pure' (p : Prog σ S α) : (p >>= fun a => pure a) = p := by
  rw [bind_eq]
  induction p with
  | ret a => rfl
  | recv n k ih => simp only [bind, ih]
  | emit s cs k ih => simp only [bind, ih]
  | get k ih => simp only [bind, ih]
  | modify h k ih => simp only [bind, ih]
  | exit => rfl

@[simp] theorem run_bind_assoc {γ : Type} (p : Prog σ S α) (f : α → Prog σ S β) (g : β → Prog σ S γ)
    (i : T) (t : σ) : ((p >>= f) >>= g).run i t = (p >>= fun a => f a >>= g).run i t := by
  rw [bind_assoc']

/-! ## Programs that neither receive nor end -/

/-- The program neither receives nor ends the process, its updates leave `kept` as it is, and each of its
    packets is in `P`. -/
def Local {κ : Type} (kept : σ → κ) (P : S → Bytes → Prop) : Prog σ S α → Prop
  | ret _ => True
  | recv _ _ => False
  | emit s cs k => P s (cs.flatMap Call.bytes) ∧ k.Local kept P
  | get k => ∀ t, (k t).Local kept P
  | modify f k => (∀ t, kept (f t) = kept t) ∧ k.Local kept P
  | exit => False

section Local

variable {κ : Type} {kept : σ → κ} {P : S → Bytes → Prop}

theorem Local.bind {p : Prog σ S α} {f : α → Prog σ S β} (hp : p.Local kept P)
    (hf : ∀ a, (f a).Local kept P) : (p >>= f).Local kept P := by
  rw [bind_eq]
  induction p with
  | ret a => exact hf a
  | recv n k _ => exact absurd hp id
  | emit s cs k ih => exact ⟨hp.1, ih hp.2⟩
  | get k ih => exact fun t => ih t (hp t)
  | modify g k ih => exact ⟨hp.1, ih hp.2⟩
  | exit => exact absurd hp id

theorem Local.pure (a : α) : (Pure.pure a : Prog σ S α).Local kept P := trivial

theorem Local.packet {s : S} {cs : List Call} (h : P s (cs.flatMap Call.bytes)) :
    (packet s cs : Prog σ S Unit).Local kept P := ⟨h, trivial⟩

theorem Local.update {f : σ → σ} (h : ∀ t, kept (f t) = kept t) :
    (update f : Prog σ S Unit).Local kept P := ⟨h, trivial⟩

theorem Local.getState_bind {f : σ → Prog σ S β} (h : ∀ t, (f t).Local kept P) :
    (getState >>= f).Local kept P := h

theorem Local.ite {c : Prop} [Decidable c] {p q : Prog σ S α} (hp : p.Local kept P)
    (hq : q.Local kept P) : (if c then p else q).Local kept P := by
  by_cases hc : c
  · rw [if_pos hc]
    exact hp
  · rw [if_neg hc]
    exact hq

theorem Local.onlyIf {c : Prop} [Decidable c] {p : Prog σ S Unit} (h : p.Local kept P) :
    (onlyIf c p).Local kept P := Local.ite h (Local.pure ())

theorem Local.forEach {body : β → Prog σ S Unit} (h : ∀ b, (body b).Local kept P) (bs : List β) :
    (forEach body bs).Local kept P := by
  induction bs with
  | nil => exact Local.pure ()
  | cons b bs ih => exact Local.bind (h b) (fun _ => ih)

/-- Less may be asked. -/
theorem Local.mono {κ' : Type} (g : κ → κ') {Q : S → Bytes → Prop} (hP : ∀ s bs, P s bs → Q s bs)
    {p : Prog σ S α} (h : p.Local kept P) : p.Local (fun t => g (kept t)) Q := by
  induction p with
  | ret a => trivial
  | recv n k _ => exact absurd h id
  | emit s cs k ih => exact ⟨hP s _ h.1, ih h.2⟩
  | get k ih => exact fun t => ih t (h t)
  | modify f k ih => exact ⟨fun t => congrArg g (h.1 t), ih h.2⟩
  | exit => exact absurd h id

end Local

/-! ## Taking a piece of the input -/

/-- On every input that starts with `bs` the program takes just `bs`. -/
def Takes (p : Prog σ S α) (bs : Bytes) (t : σ) (r : Option α) (t' : σ) (out : List (S × Bytes)) : Prop :=
  ∀ rest, p.run (bs ++ rest) t = ⟨r, rest, t', out⟩

section Takes

variable {a : α} {r : Option β} {bs bs' : Bytes} {t t₁ t₂ : σ} {out out' : List (S × Bytes)}

/-- **Taking in sequence.** -/
theorem Takes.bind {p : Prog σ S α} {f : α → Prog σ S β} (hp : p.Takes bs t (some a) t₁ out)
    (hf : (f a).Takes bs' t₁ r t₂ out') : (p >>= f).Takes (bs ++ bs') t r t₂ (out ++ out') := by
  intro rest
  rw [List.append_assoc, run_bind_of (hp (bs' ++ rest)), hf rest]
  rfl

/-- After the end of the process nothing is taken. -/
theorem Takes.bind_none {p : Prog σ S α} {f : α → Prog σ S β} (hp : p.Takes bs t none t₁ out) :
    (p >>= f).Takes bs t none t₁ out :=
  fun rest => run_bind_none (hp rest) f

/-- What follows without receiving. -/
theorem Takes.then {p : Prog σ S α} {f : α → Prog σ S β} (hp : p.Takes bs t (some a) t₁ out)
    (hf : (f a).Takes [] t₁ r t₂ out') : (p >>= f).Takes bs t r t₂ (out ++ out') := by
  have h := hp.bind hf
  rwa [List.append_nil] at h

theorem Takes.getState_bind {f : σ → Prog σ S β} (h : (f t).Takes bs t r t₁ out) :
    (getState >>= f).Takes bs t r t₁ out := h

theorem Takes.pure (b : β) : (Pure.pure b : Prog σ S β).Takes [] t (some b) t [] := fun _ => rfl

/-- **A local program takes nothing**, and keeps what it keeps. -/
theorem Local.takes {κ : Type} {kept : σ → κ} {P : S → Bytes → Prop} {p : Prog σ S β}
    (h : p.Local kept P) (t : σ) : ∃ b t' out, p.Takes [] t (some b) t' out ∧ kept t' = kept t := by
  induction p generalizing t with
  | ret a => exact ⟨a, t, [], fun _ => rfl, rfl⟩
  | recv n k _ => exact absurd h id
  | emit s cs k ih =>
      obtain ⟨a, t', out, hrun, ht'⟩ := ih h.2 t
      exact ⟨a, t', written s cs ++ out, fun rest => by rw [Prog.run, hrun rest]; rfl, ht'⟩
  | get k ih => exact ih t (h t) t
  | modify f k ih =>
      obtain ⟨a, t', out, hrun, ht'⟩ := ih h.2 (f t)
      exact ⟨a, t', out, hrun, ht'.trans (h.1 t)⟩
  | exit => exact absurd h id

end Takes

/-! ## Rounds -/

theorem run_rounds_nil {L : Type} (body : L → Prog σ S L) (l : L) (i : T) (t : σ) :
    (rounds body [] l).run i t = ⟨some l, i, t, []⟩ := rfl

theorem run_rounds_cons {L : Type} (body : L → Prog σ S L) (f : σ → σ) (fs : List (σ → σ)) (l : L)
    (i : T) (t : σ) :
    (rounds body (f :: fs) l).run i t = andThen ((body l).run i (f t)) (rounds body fs) := by
  simp only [rounds]
  rw [run_update_bind, run_bind]

/-- A single round. -/
theorem run_rounds_one {L : Type} (body : L → Prog σ S L) (f : σ → σ) (l : L) (i : T) (t : σ) :
    (rounds body [f] l).run i t = (body l).run i (f t) := by
  rw [run_rounds_cons]
  unfold andThen
  cases h : ((body l).run i (f t)).result with
  | none => simp [← h]
  | some l' => simp [run_rounds_nil, Outcome.after, ← h]

/-- Every round of the run finds the shared state in `I`. -/
def RoundsIn {L : Type} (I : σ → Prop) (body : L → Prog σ S L) : List (σ → σ) → L → T → σ → Prop
  | [], _, _, _ => True
  | f :: fs, l, i, t => I (f t) ∧ ∀ l' i' t' out,
      (body l).run i (f t) = ⟨some l', i', t', out⟩ → RoundsIn I body fs l' i' t'

/-- A round that takes a packet, and the rounds after it. -/
theorem run_rounds_takes {L : Type} {body : L → Prog σ S L} {f : σ → σ} {fs : List (σ → σ)} {l l' : L}
    {bs : Bytes} {t t' : σ} {out : List (S × Bytes)} (h : (body l).Takes bs (f t) (some l') t' out)
    (rest : Bytes) :
    (rounds body (f :: fs) l).run (bs ++ rest) t = ((rounds body fs l').run rest t').after out := by
  rw [run_rounds_cons, h rest]
  rfl

/-- A round in which the process ends. -/
theorem run_rounds_ends {L : Type} {body : L → Prog σ S L} {f : σ → σ} {fs : List (σ → σ)} {l : L}
    {bs : Bytes} {t t' : σ} {out : List (S × Bytes)} (h : (body l).Takes bs (f t) none t' out)
    (rest : Bytes) :
    (rounds body (f :: fs) l).run (bs ++ rest) t = ⟨none, rest, t', out⟩ := by
  rw [run_rounds_cons, h rest]
  rfl

end Prog

end Wire
