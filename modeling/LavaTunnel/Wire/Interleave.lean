import LavaTunnel.Wire.Prog
import Mathlib.Data.Fintype.Defs

/-!
# `Wire.Interleave` — threads that share their sockets

Several threads, each an endless loop over a `Prog`, run a call at a time under an arbitrary scheduler
and share one state and the sockets they write to. A packet is written by consecutive calls, so nothing
stops another thread from writing between two of them. This file says what still holds:

* `Emits P` — every packet a program writes satisfies `P`; closed under sequencing;
* `Quiet` — the scheduler does not let a thread write to a socket on which another one is mid-packet;
* `exec_packetPrefix` — in a run whose steps are all quiet, each stream is, at every moment, a prefix of
  whole packets, each of them written by one thread.
-/

namespace Wire

/-! ## The packets a program writes -/

namespace Prog

variable {σ S α β : Type} {P : S → Bytes → Prop}

/-- Every packet the program writes satisfies `P`, whatever it receives and reads. -/
def Emits (P : S → Bytes → Prop) : Prog σ S α → Prop
  | ret _ => True
  | recv _ k => ∀ r, (k r).Emits P
  | emit s cs k => P s (cs.flatMap Call.bytes) ∧ k.Emits P
  | get k => ∀ t, (k t).Emits P
  | modify _ k => k.Emits P
  | exit => True

theorem Emits.bind {p : Prog σ S α} {f : α → Prog σ S β} (hp : p.Emits P)
    (hf : ∀ a, (f a).Emits P) : (p >>= f).Emits P := by
  rw [bind_eq]
  induction p with
  | ret a => exact hf a
  | recv n k ih => exact fun r => ih r (hp r)
  | emit s cs k ih => exact ⟨hp.1, ih hp.2⟩
  | get k ih => exact fun t => ih t (hp t)
  | modify g k ih => exact ih hp
  | exit => trivial

theorem Emits.pure (a : α) : (Pure.pure a : Prog σ S α).Emits P := trivial

theorem Emits.exit : (Prog.exit : Prog σ S α).Emits P := trivial

theorem Emits.update (f : σ → σ) : (Prog.update f : Prog σ S Unit).Emits P := trivial

theorem Emits.getState : (Prog.getState : Prog σ S σ).Emits P := fun _ => trivial

theorem Emits.recvCall (n : Nat) : (Prog.recvCall n : Prog σ S (Option Bytes)).Emits P :=
  fun _ => trivial

theorem Emits.packet {s : S} {cs : List Call} (h : P s (cs.flatMap Call.bytes)) :
    (Prog.packet s cs : Prog σ S Unit).Emits P := ⟨h, trivial⟩

theorem Emits.onlyIf {c : Prop} [Decidable c] {p : Prog σ S Unit} (h : p.Emits P) :
    (Prog.onlyIf c p).Emits P := by
  by_cases hc : c
  · rw [onlyIf_pos hc]
    exact h
  · rw [onlyIf_neg hc]
    exact Emits.pure ()

theorem Emits.forEach {body : β → Prog σ S Unit} (h : ∀ b, (body b).Emits P) (bs : List β) :
    (Prog.forEach body bs).Emits P := by
  induction bs with
  | nil => exact Emits.pure ()
  | cons b bs ih => exact Emits.bind (h b) (fun _ => ih)

/-- A local program emits what it says. -/
theorem Local.emits {κ : Type} {kept : σ → κ} {p : Prog σ S α} (h : p.Local kept P) : p.Emits P := by
  induction p with
  | ret a => trivial
  | recv n k _ => exact absurd h id
  | emit s cs k ih => exact ⟨h.1, ih h.2⟩
  | get k ih => exact fun t => ih t (h t)
  | modify f k ih => exact ih h.2
  | exit => trivial

end Prog

/-! ## Threads -/

/-- A thread: the code it still has to run and, in the middle of a packet, the socket it writes to with
    its next call and the later ones. -/
structure Thread (σ S L : Type) where
  code : Prog σ S L
  pending : Option (S × Call × List Call)

/-- The rest of a packet, if any is left. -/
def mid {S : Type} (s : S) : List Call → Option (S × Call × List Call)
  | [] => none
  | call :: rest => some (s, call, rest)

theorem mid_socket {S : Type} {s s' : S} {call : Call} {calls rest : List Call}
    (h : mid s calls = some (s', call, rest)) : s = s' := by
  cases calls with
  | nil => exact absurd h (by simp [mid])
  | cons x xs => exact congrArg Prod.fst (Option.some.inj h)

section Threads

variable {τ σ S L : Type} [DecidableEq τ] [DecidableEq S]

/-- One call of a thread: the thread afterwards, the shared state, and what was written where. A `recv`
    is answered by `r`; a thread whose round is over starts the next one. -/
def Thread.act (body : L → Prog σ S L) (r : Option Bytes) (t : σ) (th : Thread σ S L) :
    Thread σ S L × σ × Option (S × Bytes) :=
  match th.pending with
  | some (s, call, rest) => (⟨th.code, mid s rest⟩, t, some (s, call.bytes))
  | none =>
    match th.code with
    | .ret l => (⟨body l, none⟩, t, none)
    | .recv n k => (⟨k (r.map (·.take n)), none⟩, t, none)
    | .emit _ [] k => (⟨k, none⟩, t, none)
    | .emit s (call :: rest) k => (⟨k, mid s rest⟩, t, some (s, call.bytes))
    | .get k => (⟨k t, none⟩, t, none)
    | .modify f k => (⟨k, none⟩, f t, none)
    | .exit => (th, t, none)

/-- The threads, what they share, and the bytes written so far, each with the thread that wrote it. -/
structure Config (τ σ S L : Type) where
  state : σ
  thread : τ → Thread σ S L
  stream : S → List (τ × UInt8)

/-- Bytes written by thread `i`. -/
def tag (i : τ) (bs : Bytes) : List (τ × UInt8) := bs.map (fun b => (i, b))

omit [DecidableEq τ] in
@[simp] theorem tag_append (i : τ) (bs bs' : Bytes) : tag i (bs ++ bs') = tag i bs ++ tag i bs' := by
  simp [tag]

/-- A system of threads: the loop each of them runs and when it has been started. -/
structure System (τ σ S L : Type) where
  body : τ → L → Prog σ S L
  started : τ → σ → Bool

/-- Thread `i` makes its next call. -/
def System.step (sys : System τ σ S L) (c : Config τ σ S L) (i : τ) (r : Option Bytes) :
    Config τ σ S L :=
  if sys.started i c.state then
    let a := (c.thread i).act (sys.body i) r c.state
    { state := a.2.1
      thread := Function.update c.thread i a.1
      stream := fun s => c.stream s ++
        match a.2.2 with
        | some (s', bs) => if s' = s then tag i bs else []
        | none => [] }
  else c

/-- A run under a schedule: who makes the next call, and what answers it if it is a `recv`. -/
def System.exec (sys : System τ σ S L) (c : Config τ σ S L) (sched : List (τ × Option Bytes)) :
    Config τ σ S L :=
  sched.foldl (fun c e => sys.step c e.1 e.2) c

/-- The socket a thread's next call writes to. -/
def Thread.writesTo (th : Thread σ S L) : Option S :=
  match th.pending with
  | some (s, _, _) => some s
  | none =>
    match th.code with
    | .emit s (_ :: _) _ => some s
    | _ => none

/-- Thread `i` may go on without writing into another thread's packet. -/
def Quiet (c : Config τ σ S L) (i : τ) : Prop :=
  ∀ s, (c.thread i).writesTo = some s →
    ∀ j, j ≠ i → ∀ call rest, (c.thread j).pending ≠ some (s, call, rest)

/-- Every step of the run is quiet. -/
def QuietRun (sys : System τ σ S L) : Config τ σ S L → List (τ × Option Bytes) → Prop
  | _, [] => True
  | c, e :: sched => Quiet c e.1 ∧ QuietRun sys (sys.step c e.1 e.2) sched

omit [DecidableEq τ] [DecidableEq S] in
theorem quiet_iff {c : Config τ σ S L} {i : τ} : Quiet c i ↔
    ∀ s ∈ (c.thread i).writesTo, ∀ j, j ≠ i → (c.thread j).pending.map Prod.fst ≠ some s := by
  unfold Quiet
  refine forall₄_congr fun s _ j _ => ?_
  cases (c.thread j).pending with
  | none => simp
  | some p =>
      obtain ⟨s', call, rest⟩ := p
      simp

instance [Fintype τ] (c : Config τ σ S L) (i : τ) : Decidable (Quiet c i) := decidable_of_iff' _ quiet_iff

instance decidableQuietRun [Fintype τ] (sys : System τ σ S L) : (c : Config τ σ S L) →
    (sched : List (τ × Option Bytes)) → Decidable (QuietRun sys c sched)
  | _, [] => isTrue trivial
  | c, e :: sched =>
      have := decidableQuietRun sys (sys.step c e.1 e.2) sched
      inferInstanceAs (Decidable (Quiet c e.1 ∧ _))

/-- Whole packets of the threads, one after the other. -/
def packets (ps : List (τ × Bytes)) : List (τ × UInt8) := ps.flatMap (fun p => tag p.1 p.2)

/-- A prefix of whole packets, each of them written by one thread. -/
def PacketPrefix (P : S → Bytes → Prop) (s : S) (st : List (τ × UInt8)) : Prop :=
  ∃ ps : List (τ × Bytes), (∀ p ∈ ps, P s p.2) ∧ st <+: packets ps

/-! ## What one call can do -/

variable {P : S → Bytes → Prop}

omit [DecidableEq S] in
/-- **The three kinds of call.** A thread outside a packet makes a call that writes nothing or begins a
    packet; a thread inside a packet writes its next field. -/
theorem act_cases {body : L → Prog σ S L} {r : Option Bytes} {t : σ} {th : Thread σ S L}
    (hbody : ∀ l, (body l).Emits P) (hcode : th.code.Emits P) :
    (th.act body r t).1.code.Emits P ∧
      ((th.pending = none ∧ (th.act body r t).1.pending = none ∧ (th.act body r t).2.2 = none) ∨
        ∃ s call rest, th.writesTo = some s ∧ (th.act body r t).2.2 = some (s, call.bytes) ∧
          (th.act body r t).1.pending = mid s rest ∧
          (th.pending = some (s, call, rest) ∨
            th.pending = none ∧ P s ((call :: rest).flatMap Call.bytes))) := by
  obtain ⟨code, pending⟩ := th
  -- a call goes out of the packet in progress, or as the first one of a new packet
  cases pending with
  | some p =>
      obtain ⟨s, call, rest⟩ := p
      exact ⟨hcode, Or.inr ⟨s, call, rest, rfl, rfl, rfl, Or.inl rfl⟩⟩
  | none =>
      cases code with
      | ret l => exact ⟨hbody l, Or.inl ⟨rfl, rfl, rfl⟩⟩
      | recv n k => exact ⟨hcode _, Or.inl ⟨rfl, rfl, rfl⟩⟩
      | emit s calls k =>
          cases calls with
          | nil => exact ⟨hcode.2, Or.inl ⟨rfl, rfl, rfl⟩⟩
          | cons call rest =>
              exact ⟨hcode.2, Or.inr ⟨s, call, rest, rfl, rfl, rfl, Or.inr ⟨rfl, hcode.1⟩⟩⟩
      | get k => exact ⟨hcode t, Or.inl ⟨rfl, rfl, rfl⟩⟩
      | modify f k => exact ⟨hcode, Or.inl ⟨rfl, rfl, rfl⟩⟩
      | exit => exact ⟨hcode, Or.inl ⟨rfl, rfl, rfl⟩⟩

/-! ## The invariant of quiet runs -/

/-- Nobody is in the middle of a packet on `s`. -/
def Free (c : Config τ σ S L) (s : S) : Prop :=
  ∀ j call rest, (c.thread j).pending ≠ some (s, call, rest)

/-- The stream of `s` is whole packets, followed by the part a single thread has written of one more. -/
def Tidy (P : S → Bytes → Prop) (c : Config τ σ S L) (s : S) : Prop :=
  ∃ ps : List (τ × Bytes), (∀ p ∈ ps, P s p.2) ∧
    ((c.stream s = packets ps ∧ Free c s) ∨
      ∃ i call rest done, c.stream s = packets ps ++ tag i done ∧
        (c.thread i).pending = some (s, call, rest) ∧
        (∀ j, j ≠ i → ∀ call rest, (c.thread j).pending ≠ some (s, call, rest)) ∧
        P s (done ++ (call :: rest).flatMap Call.bytes))

/-- The invariant: all code writes packets, and every stream is tidy. -/
structure Inv (P : S → Bytes → Prop) (c : Config τ σ S L) : Prop where
  code : ∀ i, (c.thread i).code.Emits P
  tidy : ∀ s, Tidy P c s

omit [DecidableEq τ] in
theorem packets_append (ps qs : List (τ × Bytes)) :
    packets (ps ++ qs) = packets ps ++ packets qs := by
  simp [packets]

omit [DecidableEq τ] in
theorem packets_singleton (i : τ) (bs : Bytes) : packets [(i, bs)] = tag i bs := by
  simp [packets]

omit [DecidableEq S] in
/-- A thread's write of `call` extends what it has written of its packet, and closes the packet if it was
    the last call. -/
theorem tidy_of_write {c' : Config τ σ S L} {s : S} {i : τ} {call : Call} {rest : List Call}
    (done : Bytes) {ps : List (τ × Bytes)} (hps : ∀ p ∈ ps, P s p.2)
    (hstream : c'.stream s = packets ps ++ tag i (done ++ call.bytes))
    (hpend : (c'.thread i).pending = mid s rest)
    (hother : ∀ j, j ≠ i → ∀ call rest, (c'.thread j).pending ≠ some (s, call, rest))
    (hP : P s (done ++ (call :: rest).flatMap Call.bytes)) : Tidy P c' s := by
  -- the last call makes the packet whole, an earlier one leaves the thread inside it
  cases rest with
  | nil =>
      refine ⟨ps ++ [(i, done ++ call.bytes)], ?_, Or.inl ⟨?_, ?_⟩⟩
      · intro p hp
        rcases List.mem_append.mp hp with h | h
        · exact hps p h
        · obtain rfl := List.mem_singleton.mp h
          simpa using hP
      · rw [hstream, packets_append, packets_singleton]
      · intro j call' rest'
        by_cases hj : j = i
        · rw [hj, hpend]
          simp [mid]
        · exact hother j hj call' rest'
  | cons next later =>
      refine ⟨ps, hps, Or.inr ⟨i, next, later, done ++ call.bytes, hstream, hpend, hother, ?_⟩⟩
      simpa only [List.flatMap_cons, List.append_assoc] using hP

omit [DecidableEq τ] [DecidableEq S] in
/-- A socket nobody wrote to and where every thread stands as before stays tidy. -/
theorem tidy_of_same {c c' : Config τ σ S L} {s : S} (hstream : c'.stream s = c.stream s)
    (hsame : ∀ j call rest, (c'.thread j).pending = some (s, call, rest)
      ↔ (c.thread j).pending = some (s, call, rest)) (h : Tidy P c s) : Tidy P c' s := by
  obtain ⟨ps, hps, hrest⟩ := h
  refine ⟨ps, hps, ?_⟩
  simpa only [Free, ne_eq, hsame, hstream] using hrest

omit [DecidableEq S] in
/-- A write to `s` by a thread that is the only one allowed there. -/
theorem tidy_of_quiet {c c' : Config τ σ S L} {s : S} {i : τ} {call : Call} {rest : List Call}
    (hq : ∀ j, j ≠ i → ∀ call rest, (c.thread j).pending ≠ some (s, call, rest))
    (hstream : c'.stream s = c.stream s ++ tag i call.bytes)
    (hpend : (c'.thread i).pending = mid s rest)
    (hthread : ∀ j, j ≠ i → c'.thread j = c.thread j)
    (hfrom : (c.thread i).pending = some (s, call, rest) ∨
      (c.thread i).pending = none ∧ P s ((call :: rest).flatMap Call.bytes))
    (h : Tidy P c s) : Tidy P c' s := by
  have hother : ∀ j, j ≠ i → ∀ call rest, (c'.thread j).pending ≠ some (s, call, rest) := by
    intro j hj
    rw [hthread j hj]
    exact hq j hj
  obtain ⟨ps, hps, ⟨hst, hfree⟩ | ⟨j, call', rest', done, hst, hj, -, hP⟩⟩ := h
  · -- the socket was free: the thread begins a packet
    rcases hfrom with hp | ⟨-, hP⟩
    · exact absurd hp (hfree i call rest)
    · refine tidy_of_write [] hps ?_ hpend hother (by simpa using hP)
      rw [hstream, hst]
      simp
  · -- somebody was mid-packet: by quietness it was the thread itself
    obtain rfl : j = i := by
      by_contra hji
      exact hq j hji _ _ hj
    rcases hfrom with hp | ⟨hp, -⟩
    · rw [hj] at hp
      obtain ⟨rfl, rfl⟩ : call' = call ∧ rest' = rest := by simpa using hp
      refine tidy_of_write done hps ?_ hpend hother hP
      rw [hstream, hst, tag_append, List.append_assoc]
    · rw [hj] at hp
      exact absurd hp (by simp)

/-- **A quiet step keeps the streams tidy.** -/
theorem inv_step {sys : System τ σ S L} (hbody : ∀ i l, (sys.body i l).Emits P)
    {c : Config τ σ S L} (h : Inv P c) {i : τ} (r : Option Bytes) (hq : Quiet c i) :
    Inv P (sys.step c i r) := by
  -- a thread that has not started does nothing
  by_cases hstart : sys.started i c.state
  swap
  · rw [System.step, if_neg hstart]
    exact h
  obtain ⟨hcode, hact⟩ := act_cases (r := r) (t := c.state) (hbody i) (h.code i)
  have hthread : ∀ j, j ≠ i → (sys.step c i r).thread j = c.thread j := by
    intro j hj
    rw [System.step, if_pos hstart]
    exact Function.update_of_ne hj _ _
  have hi : (sys.step c i r).thread i = ((c.thread i).act (sys.body i) r c.state).1 := by
    rw [System.step, if_pos hstart]
    exact Function.update_self _ _ _
  have hstream : ∀ s, (sys.step c i r).stream s = c.stream s ++
      match ((c.thread i).act (sys.body i) r c.state).2.2 with
      | some (s', bs) => if s' = s then tag i bs else []
      | none => [] := by
    intro s
    rw [System.step, if_pos hstart]
  refine ⟨fun j => ?_, fun s => ?_⟩
  · by_cases hj : j = i
    · rw [hj, hi]
      exact hcode
    · rw [hthread j hj]
      exact h.code j
  · -- a step that writes nothing leaves every stream; a call leaves every stream but its own
    rcases hact with ⟨hnone, hnone', hw⟩ | ⟨s₀, call, rest, hto, hw, hpend, hfrom⟩
    · refine tidy_of_same (by rw [hstream s, hw, List.append_nil]) (fun j call rest => ?_) (h.tidy s)
      by_cases hj : j = i
      · rw [hj, hi, hnone', hnone]
      · rw [hthread j hj]
    · by_cases hs : s₀ = s
      · subst hs
        refine tidy_of_quiet (hq s₀ hto) ?_ (by rw [hi]; exact hpend) hthread hfrom (h.tidy s₀)
        simp only [hstream s₀, hw, if_true]
      · refine tidy_of_same (by simp only [hstream s, hw, if_neg hs, List.append_nil])
          (fun j call' rest' => ?_) (h.tidy s)
        by_cases hj : j = i
        · -- before and after the call thread `i` stands on `s₀`, if anywhere
          rw [hj, hi, hpend]
          refine ⟨fun hmid => absurd (mid_socket hmid) hs, fun hp => ?_⟩
          rcases hfrom with hp' | ⟨hp', -⟩
          · rw [hp'] at hp
            exact absurd (congrArg Prod.fst (Option.some.inj hp)) hs
          · rw [hp'] at hp
            exact absurd hp (by simp)
        · rw [hthread j hj]

omit [DecidableEq τ] [DecidableEq S] in
/-- A tidy stream is a prefix of whole packets. -/
theorem packetPrefix_of_tidy {c : Config τ σ S L} {s : S} (h : Tidy P c s) :
    PacketPrefix P s (c.stream s) := by
  obtain ⟨ps, hps, ⟨hstream, -⟩ | ⟨i, call, rest, done, hstream, -, -, hP⟩⟩ := h
  · exact ⟨ps, hps, hstream ▸ List.prefix_rfl⟩
  · refine ⟨ps ++ [(i, done ++ (call :: rest).flatMap Call.bytes)], ?_, ?_⟩
    · intro p hp
      rcases List.mem_append.mp hp with h | h
      · exact hps p h
      · obtain rfl := List.mem_singleton.mp h
        exact hP
    · rw [hstream, packets_append, packets_singleton, tag_append, ← List.append_assoc]
      exact List.prefix_append _ _

/-- Nothing has been written and every thread is at the start of a round. -/
def Initial (c : Config τ σ S L) : Prop :=
  (∀ i, ∃ l, c.thread i = ⟨.ret l, none⟩) ∧ ∀ s, c.stream s = []

omit [DecidableEq τ] [DecidableEq S] in
theorem inv_initial {c : Config τ σ S L} (h : Initial c) : Inv P c := by
  have hpend : ∀ i, (c.thread i).pending = none := by
    intro i
    obtain ⟨l, hl⟩ := h.1 i
    rw [hl]
  refine ⟨fun i => ?_, fun s => ⟨[], by simp, Or.inl ⟨?_, fun j call rest => ?_⟩⟩⟩
  · obtain ⟨l, hl⟩ := h.1 i
    rw [hl]
    trivial
  · rw [h.2 s]
    rfl
  · rw [hpend j]
    simp

/-- **Quiet runs write whole packets.** From a start where nothing has been written, in every run whose
    steps are all quiet, each stream is at every moment a prefix of whole packets. -/
theorem exec_packetPrefix {sys : System τ σ S L} (hbody : ∀ i l, (sys.body i l).Emits P)
    {c : Config τ σ S L} (hc : Initial c) (sched : List (τ × Option Bytes))
    (hq : QuietRun sys c sched) (s : S) : PacketPrefix P s ((sys.exec c sched).stream s) := by
  suffices hinv : Inv P (sys.exec c sched) from packetPrefix_of_tidy (hinv.tidy s)
  have h := inv_initial (P := P) hc
  clear hc
  induction sched generalizing c with
  | nil => exact h
  | cons e sched ih => exact ih hq.2 (inv_step hbody h e.2 hq.1)

omit [DecidableEq τ] [DecidableEq S] in
/-- A thread that nobody disturbs writes into nobody's packet. -/
theorem quiet_of_free {c : Config τ σ S L} {i : τ} (h : ∀ j, j ≠ i → (c.thread j).pending = none) : Quiet c i := by
  intro s _ j hj call rest
  rw [h j hj]
  exact fun hp => absurd hp (by simp)

/-- A thread that runs alone is quiet all the time. -/
theorem quietRun_alone {sys : System τ σ S L} {c : Config τ σ S L} {i : τ}
    (h : ∀ j, j ≠ i → (c.thread j).pending = none) (rs : List (Option Bytes)) :
    QuietRun sys c (rs.map (fun r => (i, r))) := by
  induction rs generalizing c with
  | nil => trivial
  | cons r rs ih =>
      refine ⟨quiet_of_free h, ih (fun j hj => ?_)⟩
      have hthread : (sys.step c i r).thread j = c.thread j := by
        unfold System.step
        split
        · exact Function.update_of_ne hj _ _
        · rfl
      rw [hthread]
      exact h j hj

omit [DecidableEq τ] [DecidableEq S] in
/-- The first two bytes of whole packets come from one thread, unless the first one is a packet. -/
theorem packetPrefix_second {s : S} {i j : τ} {a b : UInt8} {rest : List (τ × UInt8)}
    (h : PacketPrefix P s ((i, a) :: (j, b) :: rest)) (hne : ¬ P s []) (hone : ¬ P s [a]) : i = j := by
  obtain ⟨ps, hps, hprefix⟩ := h
  cases ps with
  | nil => exact absurd hprefix (by simp [packets])
  | cons p ps =>
      obtain ⟨k, bs⟩ := p
      have hP : P s bs := hps (k, bs) List.mem_cons_self
      -- the first packet has more than one byte, so the second byte is of the same packet
      cases bs with
      | nil => exact absurd hP hne
      | cons c cs =>
          cases cs with
          | nil =>
              have hhead : (i, a) = (k, c) := (List.cons_prefix_cons.mp hprefix).1
              obtain rfl : a = c := congrArg Prod.snd hhead
              exact absurd hP hone
          | cons d ds =>
              obtain ⟨hhead, htail⟩ := List.cons_prefix_cons.mp hprefix
              have hsecond : (j, b) = (k, d) := (List.cons_prefix_cons.mp htail).1
              exact (congrArg Prod.fst hhead).trans (congrArg Prod.fst hsecond).symm

end Threads

end Wire
