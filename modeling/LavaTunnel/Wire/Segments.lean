import LavaTunnel.Wire.Prog

/-!
# `Wire.Segments` — a byte stream in segments, and programs that cannot see them

A stream transport promises the bytes, in order, and nothing about how many of them one `recv` returns.
`Segments` is a stream cut into non-empty pieces, one call getting at most one piece. A program is
`SegFree` when no transport changes what it does: its run over a transport is its run over the bytes.

`SegFree` is closed under sequencing, and the basic calls have it, except a single `recv` of two bytes or
more: that one returns whatever the transport has at hand. Two cuts are enough to show it, the stream in one
piece and the stream in single bytes; `run_simulates` reduces both to transports without segments.
-/

namespace Wire

/-- A byte stream as the transport delivers it: non-empty segments, one `recv` reads from one of them. -/
structure Segments where
  segs : List Bytes
  nonempty : ∀ p ∈ segs, p ≠ []

namespace Segments

/-- The stream that was cut. -/
def bytes (g : Segments) : Bytes := g.segs.flatten

/-- What one `recv` of `n` bytes leaves. -/
def recvRest (n : Nat) : List Bytes → List Bytes
  | [] => []
  | p :: ps => if p.length ≤ n then ps else p.drop n :: ps

theorem recvRest_nonempty {n : Nat} {l : List Bytes} (h : ∀ p ∈ l, p ≠ []) :
    ∀ p ∈ recvRest n l, p ≠ [] := by
  cases l with
  | nil => exact h
  | cons p ps =>
      by_cases hlen : p.length ≤ n
      · rw [recvRest, if_pos hlen]
        exact fun q hq => h q (List.mem_cons_of_mem p hq)
      · rw [recvRest, if_neg hlen]
        intro q hq
        rcases List.mem_cons.mp hq with rfl | hq
        · intro hnil
          rw [List.drop_eq_nil_iff] at hnil
          exact hlen hnil
        · exact h q (List.mem_cons_of_mem p hq)

instance : Transport Segments where
  recv g n := (some ((g.segs.headD []).take n), ⟨recvRest n g.segs, recvRest_nonempty g.nonempty⟩)

instance : Delivers Segments where
  bytes := bytes
  recv_bytes := by
    rintro ⟨l, hl⟩ n
    cases l with
    | nil => exact ⟨[], by simp [Transport.recv], by simp [Transport.recv, bytes, recvRest], by simp,
        fun _ h => absurd rfl h⟩
    | cons p ps =>
        have hp : p ≠ [] := hl p List.mem_cons_self
        refine ⟨p.take n, rfl, ?_, List.length_take_le n p, fun hn _ => ?_⟩
        · simp only [Transport.recv, bytes, recvRest, List.flatten_cons]
          split
          · rename_i h
            rw [List.take_of_length_le h]
          · rw [List.flatten_cons, ← List.append_assoc, List.take_append_drop]
        · rw [ne_eq, List.take_eq_nil_iff]
          rintro (h | h)
          · omega
          · exact hp h

end Segments

/-- An outcome with what is left of the stream uncut. -/
def Outcome.onBytes {σ S T α : Type} [Transport T] [Delivers T] (o : Outcome σ S T α) :
    Outcome σ S Bytes α :=
  ⟨o.result, Delivers.bytes o.input, o.state, o.out⟩

@[simp] theorem Outcome.onBytes_after {σ S T α : Type} [Transport T] [Delivers T]
    (pre : List (S × Bytes)) (o : Outcome σ S T α) : (o.after pre).onBytes = o.onBytes.after pre := rfl

namespace Prog

variable {σ S α β : Type}

/-- **Segmentation does not matter**: whatever transport delivers the stream, the run is the run over its
    bytes. -/
def SegFree (p : Prog σ S α) : Prop :=
  ∀ (T : Type) [Transport T] [Delivers T] (i : T) (t : σ), (p.run i t).onBytes = p.run (Delivers.bytes i) t

theorem andThen_onBytes {T : Type} [Transport T] [Delivers T] {f : α → Prog σ S β}
    (hf : ∀ a, (f a).SegFree) (o : Outcome σ S T α) : (andThen o f).onBytes = andThen o.onBytes f := by
  obtain ⟨result, input, state, out⟩ := o
  cases result with
  | none => rfl
  | some a =>
      show (((f a).run input state).after out).onBytes =
        ((f a).run (Delivers.bytes input) state).after out
      rw [Outcome.onBytes_after, hf a T input state]

@[simp] theorem SegFree.bind {p : Prog σ S α} {f : α → Prog σ S β} (hp : p.SegFree)
    (hf : ∀ a, (f a).SegFree) : (p >>= f).SegFree := by
  intro T _ _ i t
  rw [run_bind, run_bind, andThen_onBytes hf, hp T i t]

@[simp] theorem SegFree.pure (a : α) : (Pure.pure a : Prog σ S α).SegFree := fun _ _ _ _ _ => rfl

@[simp] theorem SegFree.exit : (Prog.exit : Prog σ S α).SegFree := fun _ _ _ _ _ => rfl

@[simp] theorem SegFree.packet (s : S) (cs : List Call) : (Prog.packet s cs : Prog σ S Unit).SegFree := by
  intro T _ _ i t
  rw [run_packet, run_packet]
  rfl

@[simp] theorem SegFree.update (f : σ → σ) : (Prog.update f : Prog σ S Unit).SegFree :=
  fun _ _ _ _ _ => rfl

@[simp] theorem SegFree.getState : (Prog.getState : Prog σ S σ).SegFree := fun _ _ _ _ _ => rfl

@[simp] theorem SegFree.ite {c : Prop} [Decidable c] {p q : Prog σ S α} (hp : p.SegFree)
    (hq : q.SegFree) : (if c then p else q).SegFree := by
  by_cases hc : c
  · rw [if_pos hc]
    exact hp
  · rw [if_neg hc]
    exact hq

@[simp] theorem SegFree.onlyIf {c : Prop} [Decidable c] {p : Prog σ S Unit} (h : p.SegFree) :
    (Prog.onlyIf c p).SegFree := SegFree.ite h (SegFree.pure ())

/-- A local program does not receive at all. -/
theorem Local.segFree {κ : Type} {kept : σ → κ} {P : S → Bytes → Prop} {p : Prog σ S α}
    (h : p.Local kept P) : p.SegFree := by
  intro T _ _ i t
  induction p generalizing t with
  | ret a => rfl
  | recv n k _ => exact absurd h id
  | emit s cs k ih =>
      show ((k.run i t).after (written s cs)).onBytes = (k.run (Delivers.bytes i) t).after (written s cs)
      rw [Outcome.onBytes_after, ih h.2]
  | get k ih => exact ih t (h t) t
  | modify f k ih => exact ih h.2 (f t)
  | exit => exact absurd h id

/-- A single `recv` of at most one byte cannot see where the segments end. -/
theorem SegFree.recvCall {n : Nat} (hn : n ≤ 1) :
    (Prog.recvCall n : Prog σ S (Option Bytes)).SegFree := by
  intro T _ _ i t
  obtain ⟨p, hp, hbytes, hle, hne⟩ := Delivers.recv_bytes i n
  -- a call for one byte gets it, if there is any
  have htake : p = (Delivers.bytes i).take n := by
    cases hi : Delivers.bytes i with
    | nil =>
        rw [hi] at hbytes
        rw [List.take_nil]
        exact (List.append_eq_nil_iff.mp hbytes).1
    | cons b bs =>
        have hlen : p.length = n := by
          rcases Nat.eq_zero_or_pos n with rfl | hpos
          · omega
          · have hp0 := List.length_pos_iff.mpr (hne hpos (by rw [hi]; simp))
            omega
        rw [← hi, ← hbytes, ← hlen, List.take_left]
  have hdrop : Delivers.bytes (Transport.recv i n).2 = (Delivers.bytes i).drop n := by
    have hsplit := List.take_append_drop n (Delivers.bytes i)
    rw [← htake] at hsplit
    exact List.append_cancel_left (hbytes.trans hsplit.symm)
  show (⟨some (Transport.recv i n).1, Delivers.bytes (Transport.recv i n).2, t, []⟩ :
    Outcome σ S Bytes (Option Bytes)) = ⟨some (some ((Delivers.bytes i).take n)), _, t, []⟩
  rw [hp, htake, hdrop]
  rfl

/-- **What is taken from the bytes is taken from every transport.** -/
theorem SegFree.run_takes {T : Type} [Transport T] [Delivers T] {p : Prog σ S α} (hp : p.SegFree)
    {bs rest : Bytes} {t t' : σ} {r : Option α} {out : List (S × Bytes)} (htakes : p.Takes bs t r t' out)
    {i : T} (hi : Delivers.bytes i = bs ++ rest) :
    ∃ i', Delivers.bytes i' = rest ∧ p.run i t = ⟨r, i', t', out⟩ := by
  have h := hp T i t
  rw [hi, htakes rest] at h
  refine ⟨(p.run i t).input, congrArg Outcome.input h, ?_⟩
  have hr : (p.run i t).result = r := congrArg Outcome.result h
  have ht : (p.run i t).state = t' := congrArg Outcome.state h
  have ho : (p.run i t).out = out := congrArg Outcome.out h
  rw [← hr, ← ht, ← ho]

/-! ## Two cuts of a stream -/

/-- **Transports that answer alike run alike.** -/
theorem run_simulates {T T' : Type} [Transport T] [Transport T'] {R : T → T' → Prop}
    (hR : ∀ i j n, R i j → (Transport.recv i n).1 = (Transport.recv j n).1 ∧
      R (Transport.recv i n).2 (Transport.recv j n).2)
    (p : Prog σ S α) {i : T} {j : T'} (h : R i j) (t : σ) :
    (p.run i t).state = (p.run j t).state ∧ (p.run i t).out = (p.run j t).out := by
  induction p generalizing i j t with
  | ret a => exact ⟨rfl, rfl⟩
  | recv n k ih =>
      obtain ⟨hsame, hnext⟩ := hR i j n h
      rw [run, run, hsame]
      exact ih _ hnext t
  | emit s cs k ih =>
      obtain ⟨hstate, hout⟩ := ih h t
      exact ⟨hstate, congrArg (written s cs ++ ·) hout⟩
  | get k ih => exact ih t h t
  | modify f k ih => exact ih h (f t)
  | exit => exact ⟨rfl, rfl⟩

/-- The stream in one segment. -/
def whole (i : Bytes) : Segments := ⟨if i = [] then [] else [i], by split <;> simp_all⟩

@[simp] theorem bytes_whole (i : Bytes) : (whole i).bytes = i := by
  unfold whole Segments.bytes
  cases i <;> simp

theorem run_whole (p : Prog σ S α) (i : Bytes) (t : σ) :
    (p.run (whole i) t).state = (p.run i t).state ∧ (p.run (whole i) t).out = (p.run i t).out := by
  refine run_simulates (R := fun g j => g = whole j) ?_ p rfl t
  rintro g j n rfl
  cases j with
  | nil => exact ⟨by simp [Transport.recv, whole], by simp [Transport.recv, whole, Segments.recvRest]⟩
  | cons b bs =>
      refine ⟨by simp [Transport.recv, whole], ?_⟩
      by_cases hn : bs.length + 1 ≤ n
      · have hnil : (b :: bs).drop n = [] := List.drop_eq_nil_of_le (by simpa using hn)
        simp [Transport.recv, whole, Segments.recvRest, hn, hnil]
      · have hne : (b :: bs).drop n ≠ [] := by
          rw [ne_eq, List.drop_eq_nil_iff]
          simpa using hn
        simp [Transport.recv, whole, Segments.recvRest, hn, hne]

/-- A stream that arrives a byte at a time. -/
structure Drip where
  bytes : Bytes

instance : Transport Drip where
  recv i n := (some (i.bytes.take (min n 1)), ⟨i.bytes.drop (min n 1)⟩)

instance : Delivers Drip where
  bytes := Drip.bytes
  recv_bytes i n := by
    refine ⟨i.bytes.take (min n 1), rfl, List.take_append_drop _ _, ?_, fun hn hi => ?_⟩
    · exact Nat.le_trans (List.length_take_le _ _) (Nat.min_le_left n 1)
    · rw [ne_eq, List.take_eq_nil_iff]
      rintro (h | h)
      · omega
      · exact hi h

/-- The stream in single bytes. -/
def singles (i : Bytes) : Segments := ⟨i.map (fun b => [b]), by simp⟩

@[simp] theorem bytes_singles (i : Bytes) : (singles i).bytes = i := by
  unfold singles Segments.bytes
  induction i with
  | nil => rfl
  | cons b bs ih => simp [ih]

theorem run_singles (p : Prog σ S α) (i : Bytes) (t : σ) :
    (p.run (singles i) t).state = (p.run (⟨i⟩ : Drip) t).state ∧
      (p.run (singles i) t).out = (p.run (⟨i⟩ : Drip) t).out := by
  refine run_simulates (R := fun g j => g = singles j.bytes) ?_ p rfl t
  rintro g ⟨j⟩ n rfl
  cases j with
  | nil => exact ⟨by simp [Transport.recv, singles], by simp [Transport.recv, singles, Segments.recvRest]⟩
  | cons b bs =>
      rcases Nat.eq_zero_or_pos n with rfl | hn
      · exact ⟨by simp [Transport.recv, singles], by simp [Transport.recv, singles, Segments.recvRest]⟩
      · have hone : min n 1 = 1 := by omega
        have htake : ([b] : Bytes).take n = [b] := List.take_of_length_le hn
        have hle : 1 ≤ n := hn
        exact ⟨by simp [Transport.recv, singles, hone, htake],
          by simp [Transport.recv, singles, Segments.recvRest, hle]⟩

end Prog

end Wire
