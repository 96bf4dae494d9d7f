import LavaTunnel.Pointers

/-!
# `LavaTunnel.Correctness.Wrappers` — `recvW` and `sendW` move everything, or a prefix

Every packet goes through the two loops. Whatever the calls in them answer, as long as none answers with more than it
was asked for, the loop ends after at most as many calls as there are bytes, and what it moved are the first bytes of
what it was to move, each once and in their order.

The `recvW` of the other modules is the first of the two loops (`run_recvW`).
-/

namespace LavaTunnel.Pointers

open Wire Wire.Prog

/-- The connection after `n` calls of a loop. -/
def Conn.received (c : Conn) (n : Nat) : Conn :=
  { c with calls := c.calls + n, position := c.position + progress c.answered n }

theorem length_next (c : Conn) (n : Nat) : (c.next n).length = n := by
  unfold Conn.next
  rw [List.length_map, List.length_range]

theorem answered_received (c : Conn) (n : Nat) : (c.received n).answered 0 = c.answered n := rfl

theorem received_succ (c : Conn) (n : Nat) : c.received (n + 1) =
    { c.received n with
      calls := (c.received n).calls + 1
      position := (c.received n).position + (c.answered n).toNat } := by
  unfold Conn.received
  rw [progress_succ, ← Nat.add_assoc, ← Nat.add_assoc]

/-- What two calls receive is what one would. -/
theorem next_progress_succ (c : Conn) (n : Nat) : c.next (progress c.answered (n + 1)) =
    c.next (progress c.answered n) ++ (c.received n).next (c.answered n).toNat := by
  unfold Conn.next Conn.received
  rw [progress_succ, List.range_add, List.map_append, List.map_map]
  simp only [Function.comp_def, Nat.add_assoc]

section Loops

variable {c : Conn} {m : Memory} {buffer size n : Nat}

/-- **What `recvW` does.** -/
theorem recvW_eq (hend : EndsWith c.answered size n) : ∀ fuel, n < fuel → recvW fuel buffer size (c, m) =
    some (exitValue c.answered size n, c.received (callsMade c.answered size n),
      m.store buffer (c.next (progress c.answered n))) := by
  have hstep : ∀ (k : Nat) (s : Conn × Memory),
      s = (c.received k, m.store buffer (c.next (progress c.answered k))) →
      (∀ i < k, 0 < c.answered i) → progress c.answered k < size →
      (recv (buffer + progress c.answered k) (size - progress c.answered k) s).1 = c.answered k ∧
        (recv (buffer + progress c.answered k) (size - progress c.answered k) s).2 =
          (c.received (k + 1), m.store buffer (c.next (progress c.answered (k + 1)))) := by
    rintro k s rfl - -
    refine ⟨rfl, Prod.ext (received_succ c k).symm ?_⟩
    have hplace : buffer + progress c.answered k = buffer + (c.next (progress c.answered k)).length := by
      rw [length_next]
    show (m.store buffer _).store (buffer + progress c.answered k) _ = _
    rw [hplace, Memory.store_store, answered_received, next_progress_succ]
  have h0 : (c, m) = (c.received 0, m.store buffer (c.next (progress c.answered 0))) :=
    Prod.ext rfl (Memory.store_nil m buffer).symm
  obtain ⟨s, rfl, hrun⟩ := transferLoop_eq (fun sofar missing => recv (buffer + sofar) missing) hstep hend h0
  rw [hend.progress_callsMade] at hrun
  exact hrun

/-- **What `sendW` does.** -/
theorem sendW_eq (hend : EndsWith c.answered size n) : ∀ fuel, n < fuel → sendW fuel m buffer size c =
    some (exitValue c.answered size n, { c with
      calls := c.calls + callsMade c.answered size n
      sent := c.sent ++ m.load buffer (progress c.answered n) }) := by
  have hstep : ∀ (k : Nat) (s : Conn),
      s = { c with calls := c.calls + k, sent := c.sent ++ m.load buffer (progress c.answered k) } →
      (∀ i < k, 0 < c.answered i) → progress c.answered k < size →
      (send m (buffer + progress c.answered k) (size - progress c.answered k) s).1 = c.answered k ∧
        (send m (buffer + progress c.answered k) (size - progress c.answered k) s).2 =
          { c with calls := c.calls + (k + 1), sent := c.sent ++ m.load buffer (progress c.answered (k + 1)) } := by
    rintro k s rfl - -
    refine ⟨rfl, ?_⟩
    show ({ c with calls := _, sent := _ } : Conn) = _
    rw [List.append_assoc, ← Nat.add_assoc]
    congr 2
    exact (Memory.load_add m buffer _ _).symm
  have h0 : c = { c with calls := c.calls + 0, sent := c.sent ++ m.load buffer (progress c.answered 0) } := by
    show c = { c with calls := c.calls, sent := c.sent ++ m.load buffer 0 }
    rw [Memory.load_zero, List.append_nil]
  obtain ⟨s, rfl, hrun⟩ := transferLoop_eq (fun sofar missing => send m (buffer + sofar) missing) hstep hend h0
  rw [hend.progress_callsMade] at hrun
  exact hrun

end Loops

/-! ## The `recvW` of the other modules -/

/-- A connection as the programs see it. -/
instance : Transport Conn where
  recv c _ :=
    (if c.answered 0 < 0 then none else some (c.next (c.answered 0).toNat),
      { c with calls := c.calls + 1, position := c.position + (c.answered 0).toNat })

theorem recv_conn (c : Conn) (n asked : Nat) : Transport.recv (c.received n) asked =
    (if c.answered n < 0 then none else some ((c.received n).next (c.answered n).toNat), c.received (n + 1)) :=
  Prod.ext rfl (received_succ c n).symm

section Run

variable {c : Conn} {size n : Nat}

/-- The loop from the `k`-th call on. -/
theorem run_recvWLoop_conn (hend : EndsWith c.answered size n) (t : Tunnel) (d : Nat) {k : Nat} (hk : k + d = n)
    {fuel : Nat} (hfuel : size ≤ progress c.answered k + fuel) :
    (recvWLoop fuel size (c.next (progress c.answered k))).run (c.received k) t =
      ⟨some (exitValue c.answered size n, c.next (progress c.answered n)), c.received (callsMade c.answered size n),
        t, []⟩ := by
  unfold exitValue callsMade
  induction d generalizing k fuel with
  | zero =>
      obtain rfl : k = n := hk
      by_cases hshort : progress c.answered k < size
      · obtain ⟨fuel, rfl⟩ := Nat.exists_eq_succ_of_ne_zero (by omega : fuel ≠ 0)
        unfold recvWLoop
        rw [length_next, if_pos hshort, run_recvCall_bind, recv_conn, if_pos hshort]
        rcases Int.lt_or_eq_of_le (hend.short hshort) with hneg | hzero
        · rw [if_pos hneg, if_pos ⟨hshort, hneg⟩]
          rfl
        · rw [if_neg (by omega), if_neg (by omega), hzero]
          rfl
      · rw [if_neg (by omega), if_neg hshort]
        cases fuel with
        | zero =>
            unfold recvWLoop
            rw [length_next]
            rfl
        | succ fuel =>
            unfold recvWLoop
            rw [length_next, if_neg hshort]
            rfl
  | succ d ih =>
      have hpos := hend.positive k (by omega)
      have hshort := hend.missing k (by omega)
      obtain ⟨fuel, rfl⟩ := Nat.exists_eq_succ_of_ne_zero (by omega : fuel ≠ 0)
      have hleft : size ≤ progress c.answered (k + 1) + fuel := by
        rw [progress_succ]
        omega
      have hnext := ih (by omega) hleft
      rw [next_progress_succ] at hnext
      unfold recvWLoop
      rw [length_next, if_pos hshort, run_recvCall_bind, recv_conn, if_neg (by omega)]
      -- at least a byte was received
      have hsome : ((c.received k).next (c.answered k).toNat).length = (c.answered k).toNat := length_next _ _
      cases hgot : (c.received k).next (c.answered k).toNat with
      | nil =>
          rw [hgot, List.length_nil] at hsome
          omega
      | cons b bs =>
          rw [hgot] at hnext
          exact hnext

/-- **The `recvW` of the other modules is the loop.** -/
theorem run_recvW (hend : EndsWith c.answered size n) (t : Tunnel) :
    (LavaTunnel.recvW size).run c t =
      ⟨some (exitValue c.answered size n, c.next (progress c.answered n)), c.received (callsMade c.answered size n),
        t, []⟩ :=
  run_recvWLoop_conn hend t n (Nat.zero_add n) (k := 0) (by omega)

end Run

/-! ## How a call comes out -/

/-- The three exits, when `k` bytes have been moved by `n` calls. -/
inductive Exit (answers : Nat → Int) (size n k : Nat) : Int → Prop where
  | full (h : k = size) : Exit answers size n k size
  | closed (h : k < size) (hanswer : answers n = 0) : Exit answers size n k k
  | error (h : k < size) (hanswer : answers n < 0) : Exit answers size n k (-1)

theorem exit_exitValue {answers : Nat → Int} {size n : Nat} (hend : EndsWith answers size n)
    (hobeys : Obeys answers size) :
    Exit answers size n (progress answers n) (exitValue answers size n) := by
  unfold exitValue
  rcases Nat.lt_or_eq_of_le (hend.progress_le hobeys) with hshort | hfull
  · rcases Int.lt_or_eq_of_le (hend.short hshort) with hneg | hzero
    · rw [if_pos ⟨hshort, hneg⟩]
      exact Exit.error hshort hneg
    · rw [if_neg (by omega)]
      exact Exit.closed hshort hzero
  · rw [if_neg (by omega)]
    nth_rewrite 2 [hfull]
    exact Exit.full hfull

/-- **The wrappers move everything, or a prefix.** Whatever the calls answer, the loops end, with the first call that
    moves nothing or when nothing is missing. What `recvW` received are the next bytes of the stream, and they lie in
    the buffer; what `sendW` sent are the first bytes of the buffer. -/
theorem wrappers_transfer (c : Conn) (m : Memory) (buffer size : Nat) (hbuffer : buffer + size ≤ m.size)
    (hobeys : Obeys c.answered size) :
    ∃ n k value, n ≤ size ∧ k ≤ size ∧ EndsWith c.answered size n ∧ Exit c.answered size n k value ∧
      ((∀ i < callsMade c.answered size n, 0 < c.answered i) → k = size ∧ value = size) ∧
      (∃ c' m', (∀ fuel, n < fuel → recvW fuel buffer size (c, m) = some (value, c', m')) ∧
        (∀ t, (LavaTunnel.recvW size).run c t = ⟨some (value, c.next k), c', t, []⟩) ∧
        m'.load buffer k = c.next k ∧ (∀ i, i < buffer ∨ buffer + k ≤ i → m'.bytes[i]? = m.bytes[i]?) ∧
        c'.position = c.position + k ∧ c'.calls = c.calls + callsMade c.answered size n) ∧
      ∃ c', (∀ fuel, n < fuel → sendW fuel m buffer size c = some (value, c')) ∧
        c'.sent = c.sent ++ m.load buffer k ∧ c'.calls = c.calls + callsMade c.answered size n := by
  obtain ⟨n, hn, hend⟩ := exists_endsWith c.answered size
  have hle := hend.progress_le hobeys
  have hexit := exit_exitValue hend hobeys
  refine ⟨n, progress c.answered n, exitValue c.answered size n, hn, hle, hend, hexit, fun hall => ?_, ?_, ?_⟩
  · have hfull : progress c.answered n = size := by
      by_contra hne
      have hshort : progress c.answered n < size := by omega
      unfold callsMade at hall
      rw [if_pos hshort] at hall
      have hpos := hall n (Nat.lt_succ_self n)
      have hstop := hend.short hshort
      omega
    refine ⟨hfull, ?_⟩
    unfold exitValue
    rw [if_neg (by omega), hfull]
  · refine ⟨_, _, recvW_eq hend, run_recvW hend, ?_, fun i hi => ?_, ?_, rfl⟩
    · exact Memory.load_store (length_next c _) (by omega)
    · rw [Memory.getElem?_store, length_next, if_neg (by omega)]
    · show c.position + progress c.answered (callsMade c.answered size n) = _
      rw [hend.progress_callsMade]
  · exact ⟨_, sendW_eq hend, rfl, rfl⟩

/-- A peer that closes after two bytes. -/
def closing : Conn := { answers := fun i => if i < 2 then 1 else 0, stream := fun i => UInt8.ofNat i }

/-- Three bytes were asked for. -/
theorem closing_transfer :
    ∃ n k value, n ≤ 3 ∧ k ≤ 3 ∧ EndsWith closing.answered 3 n ∧ Exit closing.answered 3 n k value ∧
      ((∀ i < callsMade closing.answered 3 n, 0 < closing.answered i) → k = 3 ∧ value = 3) ∧
      (∃ c' m', (∀ fuel, n < fuel → recvW fuel 1 3 (closing, ⟨[9, 9, 9, 9], by decide⟩) = some (value, c', m')) ∧
        (∀ t, (LavaTunnel.recvW 3).run closing t = ⟨some (value, closing.next k), c', t, []⟩) ∧
        m'.load 1 k = closing.next k ∧
        (∀ i, i < 1 ∨ 1 + k ≤ i → m'.bytes[i]? = ([9, 9, 9, 9] : Bytes)[i]?) ∧
        c'.position = closing.position + k ∧ c'.calls = closing.calls + callsMade closing.answered 3 n) ∧
      ∃ c', (∀ fuel, n < fuel → sendW fuel ⟨[9, 9, 9, 9], by decide⟩ 1 3 closing = some (value, c')) ∧
        c'.sent = closing.sent ++ Memory.load ⟨[9, 9, 9, 9], by decide⟩ 1 k ∧
        c'.calls = closing.calls + callsMade closing.answered 3 n := by
  refine wrappers_transfer closing ⟨[9, 9, 9, 9], by decide⟩ 1 3 (by decide) fun n _ hshort => ?_
  have hone : closing.answered n ≤ 1 := by
    show (if 0 + n < 2 then (1 : Int) else 0) ≤ 1
    split <;> decide
  omega

end LavaTunnel.Pointers
