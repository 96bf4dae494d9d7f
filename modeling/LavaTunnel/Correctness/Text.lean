import LavaTunnel.Helper

/-!
# `LavaTunnel.Correctness.Text` — texts padded with spaces

A text travels in 64 bytes, padded with spaces. `cleanString` and `nullTerm` find its end by the first two
spaces in a row, and look for the second one behind the field if they have to. So the end of a text of 63
characters depends on the byte behind the buffer, and a text of 64 characters has none.
-/

namespace LavaTunnel

open Wire

/-- A text of the protocol: no NUL, no two spaces in a row, no space at the end. -/
structure PlainText (text : Bytes) : Prop where
  noNul : 0 ∉ text
  noDouble : ¬ [32, 32] <:+: text
  noEnd : text.getLast? ≠ some 32

/-- A text in its field. -/
def padded (text : Bytes) : Bytes := text ++ List.replicate (64 - text.length) 32

theorem length_padded {text : Bytes} (h : text.length ≤ 64) : (padded text).length = 64 := by
  unfold padded
  rw [List.length_append, List.length_replicate]
  omega

/-- The text has its two spaces, or the byte behind the field makes up for the second one. -/
def Terminated (past : UInt8) (text : Bytes) : Prop := text.length ≤ 62 ∨ text.length = 63 ∧ past = 32

instance (past : UInt8) (text : Bytes) : Decidable (Terminated past text) :=
  inferInstanceAs (Decidable (_ ∨ _))

/-! ## Where a text ends -/

theorem twoSpaces_replicate (past : UInt8) (n : Nat) :
    twoSpaces past (List.replicate n 32) = if 2 ≤ n ∨ n = 1 ∧ past = 32 then some 0 else none := by
  match n with
  | 0 => rfl
  | 1 =>
      show (if (32 : UInt8) = 32 ∧ past = 32 then some 0 else none) = _
      simp
  | n + 2 =>
      rw [if_pos (Or.inl (Nat.le_add_left 2 n))]
      rfl

/-- No two spaces are found in a text, nor at its end. -/
theorem twoSpaces_append (past : UInt8) {text : Bytes} (hdouble : ¬ [32, 32] <:+: text)
    (hend : text.getLast? ≠ some 32) (rest : Bytes) :
    twoSpaces past (text ++ rest) = (twoSpaces past rest).map (· + text.length) := by
  -- no two spaces inside, and none at the end for one behind to join
  induction text with
  | nil => simp
  | cons c text ih =>
      cases text with
      | nil =>
          have hc : c ≠ 32 := fun h => hend (by rw [h]; rfl)
          cases rest with
          | nil =>
              show (if c = 32 ∧ past = 32 then some 0 else none) = none
              rw [if_neg (fun h => hc h.1)]
          | cons d rest =>
              show (if c = 32 ∧ d = 32 then some 0 else (twoSpaces past (d :: rest)).map (· + 1)) = _
              rw [if_neg (fun h => hc h.1)]
              rfl
      | cons d text =>
          have hcd : ¬ (c = 32 ∧ d = 32) := by
            rintro ⟨rfl, rfl⟩
            exact hdouble ⟨[], text, rfl⟩
          have htail := ih (fun h => hdouble (h.trans (List.suffix_cons c _).isInfix))
            (by rwa [List.getLast?_cons_cons] at hend)
          show (if c = 32 ∧ d = 32 then some 0 else (twoSpaces past (d :: text ++ rest)).map (· + 1)) = _
          rw [if_neg hcd, htail, Option.map_map]
          rfl

/-- **The end of a padded text** is found just if it is terminated. -/
theorem twoSpaces_padded (past : UInt8) {text : Bytes} (h : PlainText text) (hlen : text.length ≤ 64) :
    twoSpaces past (padded text) = if Terminated past text then some text.length else none := by
  have hcond : (2 ≤ 64 - text.length ∨ 64 - text.length = 1 ∧ past = 32) ↔ Terminated past text := by
    unfold Terminated
    refine or_congr (by omega) (and_congr (by omega) Iff.rfl)
  unfold padded
  rw [twoSpaces_append past h.noDouble h.noEnd, twoSpaces_replicate]
  by_cases ht : Terminated past text
  · rw [if_pos (hcond.mpr ht), if_pos ht, Option.map_some, Nat.zero_add]
  · rw [if_neg (fun hc => ht (hcond.mp hc)), if_neg ht, Option.map_none]

/-! ## `cleanString` -/

/-- Without an `&` everything is copied. -/
theorem cleanCopy_eq {s : Bytes} (h : 38 ∉ s) : cleanCopy s = s := by
  induction s with
  | nil => rfl
  | cons c s ih =>
      have hc : c ≠ 38 := fun hc => h (hc ▸ List.mem_cons_self)
      have hs := ih (fun hs => h (List.mem_cons_of_mem c hs))
      cases s with
      | nil => exact if_neg hc
      | cons d s =>
          show (if c = 38 then cleanCopy s else c :: cleanCopy (d :: s)) = _
          rw [if_neg hc, hs]

/-- The string before a NUL. -/
theorem cstr_append_zero {s : Bytes} (h : 0 ∉ s) (rest : Bytes) : cstr (s ++ 0 :: rest) = s := by
  unfold cstr
  rw [List.takeWhile_append_of_pos (forall_ne_of_notMem h), List.takeWhile_cons_of_neg (by decide), List.append_nil]

theorem cstr_prefix (buf : Bytes) : cstr buf <+: buf := List.takeWhile_prefix _

/-- A string in front of a NUL. -/
theorem cstr_append {s : Bytes} (h : 0 ∉ s) (rest : Bytes) : cstr (s ++ rest) = s ++ cstr rest := by
  unfold cstr
  rw [List.takeWhile_append_of_pos (forall_ne_of_notMem h)]

/-- A terminator inside a string. -/
theorem cstr_set_zero {s : Bytes} {n : Nat} (h : n < s.length) : cstr (s.set n 0) = cstr (s.take n) := by
  have hset : s.set n 0 = s.take n ++ 0 :: s.drop (n + 1) := by
    rw [List.set_eq_take_append_cons_drop, if_pos h]
  rw [hset]
  unfold cstr
  -- the scan stops in front of the terminator, or before
  induction s.take n with
  | nil => rfl
  | cons c s ih =>
      rw [List.cons_append]
      by_cases hc : c = 0
      · rw [List.takeWhile_cons_of_neg (by simpa using hc), List.takeWhile_cons_of_neg (by simpa using hc)]
      · rw [List.takeWhile_cons_of_pos (by simpa using hc), List.takeWhile_cons_of_pos (by simpa using hc), ih]

theorem cleanCopy_sublist (s : Bytes) : (cleanCopy s).Sublist s := by
  fun_induction cleanCopy s with
  | case1 => exact List.Sublist.refl []
  | case2 => exact List.nil_sublist _
  | case3 c => exact List.Sublist.refl [c]
  | case4 d rest ih => exact (ih.cons d).cons 38
  | case5 c d rest _ ih => exact ih.cons_cons c

/-- **`cleanString`** on a padded text: what is copied, and what was behind it up to the end of the text, if the text
    is terminated. Nothing at all if it is not. -/
theorem cstr_cleanString (env : Env) {text buf : Bytes} (h : PlainText text) (hlen : text.length ≤ 64)
    (hbuf : 64 ≤ buf.length) :
    cstr (cleanString env buf (padded text)) = if Terminated env.past text then
      cleanCopy text ++ cstr ((buf.drop (cleanCopy text).length).take (text.length - (cleanCopy text).length))
    else [] := by
  have hfield : (padded text).take 64 = padded text := List.take_of_length_le (length_padded hlen).le
  unfold cleanString
  dsimp only
  rw [hfield, twoSpaces_padded env.past h hlen]
  by_cases ht : Terminated env.past text
  · have hlt : text.length < buf.length := by
      rcases ht with ht | ht <;> omega
    have htake : (padded text).take text.length = text := by
      unfold padded
      exact List.take_left
    have hshort := (cleanCopy_sublist text).length_le
    have hnul : 0 ∉ cleanCopy text := fun h0 => h.noNul ((cleanCopy_sublist text).subset h0)
    rw [if_pos ht, if_pos ht, Option.getD_some, htake]
    unfold overwrite
    rw [List.set_append_right _ _ hshort, cstr_append hnul, cstr_set_zero (by rw [List.length_drop]; omega)]
  · rw [if_neg ht, if_neg ht, Option.getD_none, List.take_zero]
    have hzero := cstr_set_zero (s := buf) (n := 0) (by omega)
    exact hzero

/-- A text without colour codes. -/
theorem cstr_cleanString_padded (env : Env) {text buf : Bytes} (h : PlainText text) (hamp : 38 ∉ text)
    (hlen : text.length ≤ 64) (hbuf : buf.length = 64) :
    cstr (cleanString env buf (padded text)) = if Terminated env.past text then text else [] := by
  rw [cstr_cleanString env h hlen hbuf.ge, cleanCopy_eq hamp, Nat.sub_self, List.take_zero]
  exact if_congr Iff.rfl (List.append_nil text) rfl

/-! ## `strEqual` -/

/-- Comparing a text, byte by byte, with the start of a buffer. -/
theorem getD_eq_iff_prefix {a : Bytes} (h : 0 ∉ a) (b : Bytes) :
    (∀ i < a.length, b.getD i 0 = a.getD i 0) ↔ a <+: b := by
  induction a generalizing b with
  | nil => exact iff_of_true (fun i hi => absurd hi (Nat.not_lt_zero i)) List.nil_prefix
  | cons c a ih =>
      have hc : c ≠ 0 := fun h0 => h (h0 ▸ List.mem_cons_self)
      cases b with
      | nil =>
          -- behind its end a buffer reads as zero, and the text has none
          refine iff_of_false (fun hall => ?_) (by simp)
          exact hc (hall 0 (Nat.zero_lt_succ _)).symm
      | cons d b =>
          rw [List.cons_prefix_cons, ← ih (fun h0 => h (List.mem_cons_of_mem c h0)) b]
          constructor
          · intro hall
            refine ⟨(hall 0 (Nat.zero_lt_succ _)).symm, fun i hi => ?_⟩
            exact hall (i + 1) (Nat.succ_lt_succ hi)
          · rintro ⟨rfl, hall⟩ i hi
            cases i with
            | zero => rfl
            | succ i => exact hall i (Nat.lt_of_succ_lt_succ hi)

/-- A text without a NUL does not reach behind one. -/
theorem prefix_append_zero_iff {a : Bytes} (h : 0 ∉ a) (b rest : Bytes) : a <+: b ++ 0 :: rest ↔ a <+: b := by
  constructor
  · intro hprefix
    rcases List.prefix_or_prefix_of_prefix hprefix (List.prefix_append b (0 :: rest)) with hab | hba
    · exact hab
    · obtain ⟨more, rfl⟩ := hba
      rw [List.prefix_append_right_inj] at hprefix
      cases more with
      | nil => simp
      | cons c more =>
          obtain rfl : c = 0 := (List.cons_prefix_cons.mp hprefix).1
          exact absurd (List.mem_append_right b List.mem_cons_self) h
  · intro hprefix
    exact hprefix.trans (List.prefix_append b (0 :: rest))

/-- The local copy that `strEqual` makes of a string. -/
def strEqualCopy (caseSensitive : Bool) (destination source : Bytes) : Bytes :=
  if caseSensitive then strcpy destination source else strLower destination source

/-- **What `strEqual` asks**: whether the one copy, up to its NUL, is what the other copy begins with. -/
theorem strEqual_iff (env : Env) (equals str : Bytes) (caseSensitive : Bool) :
    strEqual env equals str caseSensitive = true ↔
      cstr (strEqualCopy caseSensitive (env.undef 256) equals) <+:
        strEqualCopy caseSensitive ((env.var 1).undef 256) str := by
  have hcopy : ∀ buf s, (if caseSensitive then strcpy else strLower) buf s = strEqualCopy caseSensitive buf s := by
    intro buf s
    unfold strEqualCopy
    split <;> rfl
  unfold strEqual
  dsimp only
  rw [hcopy, hcopy, ← getD_eq_iff_prefix (zero_notMem_cstr _), List.all_eq_true]
  simp only [List.mem_range, beq_iff_eq]
  -- up to its NUL the copy is the string in it
  refine forall₂_congr fun i hi => ?_
  have hhead : ∀ buf : Bytes, i < (cstr buf).length → buf.getD i 0 = (cstr buf).getD i 0 := by
    intro buf hi
    obtain ⟨rest, hrest⟩ := cstr_prefix buf
    have hleft : (cstr buf ++ rest)[i]? = (cstr buf)[i]? := List.getElem?_append_left hi
    rw [List.getD_eq_getElem?_getD, List.getD_eq_getElem?_getD, ← hleft, hrest]
  rw [hhead _ hi]

/-- A copy by `strcpy`, and what is left of the buffer. -/
theorem strcpy_eq (destination source : Bytes) :
    strcpy destination source = cstr source ++ 0 :: destination.drop ((cstr source).length + 1) := by
  unfold strcpy overwrite
  rw [List.append_assoc, List.length_append]
  rfl

/-- **`strEqual`** with case asks whether the one string begins with the other. -/
theorem strEqual_prefix_iff (env : Env) (equals str : Bytes) :
    strEqual env equals str true = true ↔ cstr equals <+: cstr str := by
  rw [strEqual_iff]
  unfold strEqualCopy
  rw [if_pos rfl, if_pos rfl, strcpy_eq, strcpy_eq, cstr_append_zero (zero_notMem_cstr equals)]
  exact prefix_append_zero_iff (zero_notMem_cstr equals) _ _

end LavaTunnel
