import LavaTunnel.Wire.Segments
import Mathlib.Algebra.BigOperators.Group.List.Basic

/-!
# `Wire.Steady` — a loop that takes its stream piece by piece

A dispatch loop takes one packet of its stream in each round. Whether the whole run can see how the stream was
cut comes down to its rounds:

* `Steady` — every round takes its packet in the same way from every transport; then every cut of the stream
  gives the same run (`Steady.splitFree`);
* `Unsteady` — some round does not, and what it writes differs between the stream in one piece and the stream
  in single bytes; then two cuts give different runs (`Unsteady.not_splitFree`).
-/

namespace Wire

namespace Prog

variable {σ S α L : Type}

/-- From every transport the program takes just `bs`, and does the same. -/
def TakesAnywhere (p : Prog σ S α) (bs : Bytes) (t : σ) (r : Option α) (t' : σ)
    (out : List (S × Bytes)) : Prop :=
  ∀ (T : Type) [Transport T] [Delivers T] (i : T) (rest : Bytes), Delivers.bytes i = bs ++ rest →
    ∃ i' : T, Delivers.bytes i' = rest ∧ p.run i t = ⟨r, i', t', out⟩

theorem SegFree.takesAnywhere {p : Prog σ S α} (hp : p.SegFree) {bs : Bytes} {t t' : σ} {r : Option α}
    {out : List (S × Bytes)} (h : p.Takes bs t r t' out) : p.TakesAnywhere bs t r t' out :=
  fun _ _ _ _ _ hi => hp.run_takes h hi

/-- At the end of the stream the program ends the process, and does the same with every transport. -/
def EndsAnywhere (p : Prog σ S α) (t : σ) : Prop :=
  ∃ t' out, ∀ (T : Type) [Transport T] [Delivers T] (i : T), Delivers.bytes i = [] →
    ∃ i' : T, Delivers.bytes i' = [] ∧ p.run i t = ⟨none, i', t', out⟩

/-- `n` rounds of a loop with nobody else at work. -/
def alone (body : L → Prog σ S L) (n : Nat) (l : L) : Prog σ S L := rounds body (List.replicate n id) l

theorem run_alone_succ {T : Type} [Transport T] (body : L → Prog σ S L) (n : Nat) (l : L) (i : T) (t : σ) :
    (alone body (n + 1) l).run i t = andThen ((body l).run i t) (alone body n) :=
  run_rounds_cons body id _ l i t

/-! ## The same run from every transport -/

/-- Every round takes its packet in the same way from every transport. -/
def Steady (body : L → Prog σ S L) : List Bytes → L → σ → Prop
  | [], l, t => (body l).EndsAnywhere t
  | bs :: rest, l, t => ∃ r t' out, (body l).TakesAnywhere bs t r t' out ∧
      ∀ l', r = some l' → Steady body rest l' t'

/-- **A steady loop runs as over the bytes.** -/
theorem Steady.run {T : Type} [Transport T] [Delivers T] {body : L → Prog σ S L} {packets : List Bytes}
    {l : L} {t : σ} (h : Steady body packets l t) (n : Nat) {i : T}
    (hi : Delivers.bytes i = packets.flatten) :
    ((alone body n l).run i t).onBytes = (alone body n l).run packets.flatten t := by
  induction n generalizing packets l t i with
  | zero =>
      show (⟨some l, Delivers.bytes i, t, []⟩ : Outcome σ S Bytes L) = _
      rw [hi]
      rfl
  | succ n ih =>
      rw [run_alone_succ, run_alone_succ]
      -- what a whole round does on `T` it does on the bytes, and both leave the same
      cases packets with
      | nil =>
          obtain ⟨t', out, hends⟩ := h
          obtain ⟨i', hi', hrun⟩ := hends T i hi
          obtain ⟨j', hj', hrun'⟩ := hends Bytes [] rfl
          obtain rfl : j' = [] := hj'
          rw [hrun, List.flatten_nil, hrun']
          show (⟨none, Delivers.bytes i', t', out⟩ : Outcome σ S Bytes L) = _
          rw [hi']
          rfl
      | cons bs rest =>
          obtain ⟨r, t', out, htakes, hnext⟩ := h
          obtain ⟨i', hi', hrun⟩ := htakes T i rest.flatten hi
          obtain ⟨j', hj', hrun'⟩ := htakes Bytes (bs ++ rest.flatten) rest.flatten rfl
          obtain rfl : j' = rest.flatten := hj'
          rw [hrun, List.flatten_cons, hrun']
          cases r with
          | none =>
              show (⟨none, Delivers.bytes i', t', out⟩ : Outcome σ S Bytes L) = _
              rw [hi']
              rfl
          | some l' =>
              show (((alone body n l').run i' t').after out).onBytes =
                ((alone body n l').run rest.flatten t').after out
              rw [Outcome.onBytes_after, ih (hnext l' rfl) hi']

/-! ## A run that depends on the transport -/

/-- Two runs have written different bytes to `s` at the same place. -/
def Differ [DecidableEq S] (s : S) (out out' : List (S × Bytes)) : Prop :=
  ∃ (k : Nat) (a b : UInt8), (stream s out)[k]? = some a ∧ (stream s out')[k]? = some b ∧ a ≠ b

section Differ

variable [DecidableEq S] {s : S} {out out' : List (S × Bytes)}

theorem Differ.ne (h : Differ s out out') : stream s out ≠ stream s out' := by
  obtain ⟨k, a, b, ha, hb, hne⟩ := h
  intro heq
  rw [heq, hb] at ha
  exact hne (Option.some.inj ha).symm

/-- What is written later does not make up for it. -/
theorem Differ.append (h : Differ s out out') (more more' : List (S × Bytes)) :
    Differ s (out ++ more) (out' ++ more') := by
  obtain ⟨k, a, b, ha, hb, hne⟩ := h
  refine ⟨k, a, b, ?_, ?_, hne⟩
  · rw [stream_append, List.getElem?_append_left (List.getElem?_eq_some_iff.mp ha).1, ha]
  · rw [stream_append, List.getElem?_append_left (List.getElem?_eq_some_iff.mp hb).1, hb]

theorem Differ.prepend (h : Differ s out out') (before : List (S × Bytes)) :
    Differ s (before ++ out) (before ++ out') := by
  obtain ⟨k, a, b, ha, hb, hne⟩ := h
  refine ⟨(stream s before).length + k, a, b, ?_, ?_, hne⟩
  · rw [stream_append, List.getElem?_append_right (Nat.le_add_right _ _), Nat.add_sub_cancel_left, ha]
  · rw [stream_append, List.getElem?_append_right (Nat.le_add_right _ _), Nat.add_sub_cancel_left, hb]

end Differ

/-- What is written first is in the outcome. -/
theorem andThen_out {T : Type} [Transport T] {β : Type} (o : Outcome σ S T α) (f : α → Prog σ S β) :
    ∃ more, (andThen o f).out = o.out ++ more := by
  obtain ⟨result, input, state, out⟩ := o
  cases result with
  | none => exact ⟨[], (List.append_nil out).symm⟩
  | some a => exact ⟨_, rfl⟩

variable [DecidableEq S]

/-- After some rounds that are the same from every transport comes one that writes something else when the
    stream comes in single bytes. -/
def Unsteady (body : L → Prog σ S L) (s : S) : List Bytes → L → σ → Prop
  | [], _, _ => False
  | bs :: rest, l, t =>
      (∃ l' t' out, (body l).TakesAnywhere bs t (some l') t' out ∧ Unsteady body s rest l' t') ∨
        ∀ i : Bytes, Differ s ((body l).run (bs ++ i) t).out ((body l).run (⟨bs ++ i⟩ : Drip) t).out

/-- **An unsteady loop writes different bytes.** -/
theorem Unsteady.differ {body : L → Prog σ S L} {s : S} {packets : List Bytes} {l : L} {t : σ}
    (h : Unsteady body s packets l t) {n : Nat} (hn : packets.length ≤ n) :
    Differ s ((alone body n l).run packets.flatten t).out
      ((alone body n l).run (⟨packets.flatten⟩ : Drip) t).out := by
  induction packets generalizing n l t with
  | nil => exact absurd h id
  | cons bs rest ih =>
      obtain ⟨n, rfl⟩ : ∃ m, n = m + 1 := ⟨n - 1, by rw [List.length_cons] at hn; omega⟩
      rw [run_alone_succ, run_alone_succ, List.flatten_cons]
      -- the outputs agree up to the round that differs, and stay different behind it
      rcases h with ⟨l', t', out, htakes, hnext⟩ | hdiffer
      · obtain ⟨i', hi', hrun⟩ := htakes Bytes (bs ++ rest.flatten) rest.flatten rfl
        obtain ⟨⟨j'⟩, hj', hrun'⟩ := htakes Drip ⟨bs ++ rest.flatten⟩ rest.flatten rfl
        obtain rfl : i' = rest.flatten := hi'
        obtain rfl : j' = rest.flatten := hj'
        rw [hrun, hrun']
        exact (ih hnext (by simpa using hn)).prepend out
      · obtain ⟨more, hmore⟩ := andThen_out ((body l).run (bs ++ rest.flatten) t) (alone body n)
        obtain ⟨more', hmore'⟩ := andThen_out ((body l).run (⟨bs ++ rest.flatten⟩ : Drip) t) (alone body n)
        rw [hmore, hmore']
        exact (hdiffer rest.flatten).append more more'

/-! ## Every two cuts -/

/-- **Segmentation is not observable**: every two cuts of the stream give the same bytes on every socket and
    the same state, once the loop has gone through the stream. Every round takes a byte at least. -/
def SplitFree (body : L → Prog σ S L) (l : L) (t : σ) (i : Bytes) : Prop :=
  ∀ g g' : Segments, g.bytes = i → g'.bytes = i →
    (∀ s, stream s ((alone body (i.length + 1) l).run g t).out =
      stream s ((alone body (i.length + 1) l).run g' t).out) ∧
    ((alone body (i.length + 1) l).run g t).state = ((alone body (i.length + 1) l).run g' t).state

theorem Steady.splitFree {body : L → Prog σ S L} {packets : List Bytes} {l : L} {t : σ}
    (h : Steady body packets l t) : SplitFree body l t packets.flatten := by
  intro g g' hg hg'
  have hrun := h.run (packets.flatten.length + 1) (i := g) hg
  have hrun' := h.run (packets.flatten.length + 1) (i := g') hg'
  have hsame := hrun.trans hrun'.symm
  exact ⟨fun s => congrArg (fun o => stream s o.out) hsame, congrArg (fun o => o.state) hsame⟩

theorem Unsteady.not_splitFree {body : L → Prog σ S L} {s : S} {packets : List Bytes} {l : L} {t : σ}
    (h : Unsteady body s packets l t) (hne : ∀ bs ∈ packets, bs ≠ []) :
    ¬ SplitFree body l t packets.flatten := by
  intro hfree
  have hlen : packets.length ≤ packets.flatten.length + 1 := by
    have hle : (packets.map List.length).length ≤ (packets.map List.length).sum := by
      refine List.length_le_sum_of_one_le _ (fun n hn => ?_)
      obtain ⟨bs, hbs, rfl⟩ := List.mem_map.mp hn
      exact List.length_pos_iff.mpr (hne bs hbs)
    rw [List.length_map] at hle
    rw [List.length_flatten]
    omega
  have hdiffer := h.differ hlen
  rw [← (run_whole _ _ _).2, ← (run_singles _ _ _).2] at hdiffer
  exact hdiffer.ne ((hfree _ _ (bytes_whole _) (bytes_singles _)).1 s)

end Prog

end Wire
