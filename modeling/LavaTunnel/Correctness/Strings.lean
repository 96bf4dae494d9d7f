import LavaTunnel.Correctness.Text

/-!
# `LavaTunnel.Correctness.Strings` — strings in buffers that were not empty

`cleanString` puts its terminator where the text ends in the source, and not where it ends in the destination. So
behind a text with colour codes the old destination shows. `strLower` puts no terminator at all, and `strEqual` goes
on in what its two buffers held before.
-/

namespace LavaTunnel

open Wire

/-! ## `cleanString` -/

/-- A text without its colour codes, an `&` and the character after it. -/
def stripCodes : Bytes → Bytes
  | [] => []
  | [c] => [c]
  | c :: d :: rest => if c = 38 then stripCodes rest else c :: stripCodes (d :: rest)

/-- An `&` with no character after it. -/
def danglingCode : Bytes → Bytes
  | [] => []
  | [c] => if c = 38 then [c] else []
  | c :: d :: rest => if c = 38 then danglingCode rest else danglingCode (d :: rest)

/-- The search of `cleanString` reads a byte, and the one behind a space. `i` is the index of the first byte. -/
def searchReads (past : UInt8) (i : Nat) : Bytes → List Nat
  | [] => []
  | c :: rest =>
      if c = 32 then i :: (i + 1) :: (if rest.headD past = 32 then [] else searchReads past (i + 1) rest)
      else i :: searchReads past (i + 1) rest

/-- The copy loop of `cleanString` does not read the character of a code. -/
def copyReads (i : Nat) : Bytes → List Nat
  | [] => []
  | [_] => [i]
  | c :: d :: rest => if c = 38 then i :: copyReads (i + 2) rest else i :: copyReads (i + 1) (d :: rest)

/-- The indices at which `cleanString` reads its source. -/
def cleanStringReads (past : UInt8) (source : Bytes) : List Nat :=
  searchReads past 0 (source.take 64) ++ copyReads 0 (source.take ((twoSpaces past (source.take 64)).getD 0))

/-- What is behind the decoded text, up to the length of the text, is no string, or the `&` that belongs there. -/
def NothingShows (destination text : Bytes) : Prop :=
  let decoded := (stripCodes text).length - (danglingCode text).length
  cstr ((destination.drop decoded).take (text.length - decoded)) = danglingCode text

instance (destination text : Bytes) : Decidable (NothingShows destination text) :=
  inferInstanceAs (Decidable (_ = _))

/-- What is copied is the decoded text, but for an `&` at the end. -/
theorem stripCodes_eq (text : Bytes) : stripCodes text = cleanCopy text ++ danglingCode text := by
  fun_induction stripCodes text with
  | case1 => rfl
  | case2 c =>
      by_cases hc : c = 38
      · rw [cleanCopy, danglingCode, if_pos hc, if_pos hc]
        rfl
      · rw [cleanCopy, danglingCode, if_neg hc, if_neg hc]
        rfl
  | case3 d rest ih => exact ih
  | case4 c d rest hc ih => rw [ih, cleanCopy, danglingCode, if_neg hc, if_neg hc, List.cons_append]

/-- **Where the search reads**, at the end of a text and its spaces: behind them just if there is one space. -/
theorem searchReads_lt_iff (past : UInt8) {text : Bytes} (hdouble : ¬ [32, 32] <:+: text)
    (hend : text.getLast? ≠ some 32) (i k : Nat) :
    (∀ n ∈ searchReads past i (text ++ List.replicate k 32), n < i + (text.length + k)) ↔ k ≠ 1 := by
  induction text generalizing i with
  | nil =>
      match k with
      | 0 => exact iff_of_true (fun n hn => absurd hn List.not_mem_nil) (by decide)
      | 1 =>
          refine iff_of_false (fun hall => ?_) (fun h => h rfl)
          have hlt : i + 1 < i + (0 + 1) := hall (i + 1) (by simp [searchReads])
          omega
      | k + 2 =>
          refine iff_of_true (fun n hn => ?_) (by omega)
          have hn' : n = i ∨ n = i + 1 := by simpa [searchReads, List.replicate_succ] using hn
          rw [List.length_nil]
          omega
  | cons c text ih =>
      have htail : ∀ i, (∀ n ∈ searchReads past i (text ++ List.replicate k 32), n < i + (text.length + k)) ↔ k ≠ 1 :=
        ih (fun h => hdouble (h.trans (List.suffix_cons c _).isInfix)) (fun h => by
          cases text with
          | nil => exact absurd h (by simp)
          | cons d text => exact hend (by rwa [List.getLast?_cons_cons]))
      rw [List.length_cons, List.cons_append, searchReads, ← htail (i + 1)]
      have hshift : i + 1 + (text.length + k) = i + (text.length + 1 + k) := by omega
      rw [hshift]
      by_cases hc : c = 32
      · -- a space inside the text has another character behind it
        obtain ⟨d, rest, rfl⟩ : ∃ d rest, text = d :: rest := by
          cases text with
          | nil => exact absurd (congrArg some hc) hend
          | cons d rest => exact ⟨d, rest, rfl⟩
        have hd : d ≠ 32 := by
          rintro rfl
          exact hdouble ⟨[], rest, by rw [hc]; rfl⟩
        rw [if_pos hc, List.cons_append, List.headD_cons, if_neg hd, List.forall_mem_cons, List.forall_mem_cons,
          ← List.cons_append, and_iff_right (by omega), and_iff_right (by rw [List.length_cons]; omega)]
      · rw [if_neg hc, List.forall_mem_cons, and_iff_right (by omega)]

theorem copyReads_lt {i n : Nat} {s : Bytes} (h : n ∈ copyReads i s) : n < i + s.length := by
  fun_induction copyReads i s with
  | case1 => exact absurd h List.not_mem_nil
  | case2 i =>
      rw [List.mem_singleton.mp h]
      exact Nat.lt_succ_self i
  | case3 i d rest ih =>
      rcases List.mem_cons.mp h with rfl | h
      · exact Nat.lt_add_of_pos_right (Nat.zero_lt_succ _)
      · have hlt := ih h
        simp only [List.length_cons]
        omega
  | case4 i c d rest _ ih =>
      rcases List.mem_cons.mp h with rfl | h
      · exact Nat.lt_add_of_pos_right (Nat.zero_lt_succ _)
      · have hlt := ih h
        simp only [List.length_cons] at hlt ⊢
        omega

/-- **Where `cleanString` reads**: behind the field just if one space ends it. -/
theorem cleanStringReads_lt_iff (past : UInt8) {text : Bytes} (h : PlainText text) (hlen : text.length ≤ 64) :
    (∀ n ∈ cleanStringReads past (padded text), n < 64) ↔ text.length ≠ 63 := by
  have hsearch := searchReads_lt_iff past h.noDouble h.noEnd 0 (64 - text.length)
  rw [show 0 + (text.length + (64 - text.length)) = 64 by omega] at hsearch
  have hfield : (padded text).take 64 = padded text := List.take_of_length_le (length_padded hlen).le
  have hcopy : ∀ n ∈ copyReads 0 ((padded text).take ((twoSpaces past (padded text)).getD 0)), n < 64 := by
    intro n hn
    have hlt := copyReads_lt hn
    rw [List.length_take, length_padded hlen] at hlt
    omega
  unfold cleanStringReads
  rw [hfield, List.forall_mem_append, and_iff_left hcopy]
  exact hsearch.trans (by omega)

/-- **`cleanString` decodes a text** just if the text has at most 62 characters and the old destination does not show
    behind it, or it has 64 and they are all codes. -/
theorem cleanString_decodes_iff (env : Env) {text destination : Bytes} (h : PlainText text) (hlen : text.length ≤ 64)
    (hdest : 64 ≤ destination.length) :
    (cstr (cleanString env destination (padded text)) = stripCodes text ∧
        ∀ n ∈ cleanStringReads env.past (padded text), n < 64) ↔
      text.length ≤ 62 ∧ NothingShows destination text ∨ text.length = 64 ∧ stripCodes text = [] := by
  rw [cleanStringReads_lt_iff env.past h hlen, cstr_cleanString env h hlen hdest]
  have hcopied : (stripCodes text).length - (danglingCode text).length = (cleanCopy text).length := by
    rw [stripCodes_eq, List.length_append, Nat.add_sub_cancel]
  by_cases hshort : text.length ≤ 62
  · have ht : Terminated env.past text := Or.inl hshort
    rw [if_pos ht, and_iff_left (by omega), and_iff_right hshort, or_iff_left (by omega)]
    unfold NothingShows
    rw [hcopied, stripCodes_eq, List.append_cancel_left_eq]
  · by_cases h63 : text.length = 63
    · exact iff_of_false (fun hboth => hboth.2 h63) (by omega)
    · -- no terminator is found, and the string ends before it begins
      have hnot : ¬ Terminated env.past text := by
        unfold Terminated
        omega
      rw [if_neg hnot, and_iff_left h63, or_iff_right (fun hboth => hshort hboth.1), and_iff_right (by omega)]
      exact eq_comm

theorem plainText_hello : PlainText (ascii "&ahello") where
  noNul := by decide
  noDouble := fun h => absurd (h.subset List.mem_cons_self) (by decide)
  noEnd := by decide

/-- A text with a code in a destination that was cleared. -/
theorem cleanString_decodes_hello :
    cstr (cleanString {} (List.replicate 64 0) (padded (ascii "&ahello"))) = stripCodes (ascii "&ahello") ∧
      ∀ n ∈ cleanStringReads 0 (padded (ascii "&ahello")), n < 64 :=
  (cleanString_decodes_iff {} plainText_hello (by decide) (by decide)).mpr (Or.inl ⟨by decide, by decide +kernel⟩)

/-- In a destination that held another name the end of it shows. -/
theorem cleanString_shows : ¬ ∀ (env : Env) (text destination : Bytes), PlainText text → text.length ≤ 64 →
    64 ≤ destination.length → cstr (cleanString env destination (padded text)) = stripCodes text ∧
      ∀ n ∈ cleanStringReads env.past (padded text), n < 64 := by
  intro hall
  obtain ⟨hdecoded, -⟩ := hall {} (ascii "&ahello") (List.replicate 64 120) plainText_hello (by decide) (by decide)
  exact absurd hdecoded (by decide +kernel)

/-! ## `strEqual` -/

section Prefixes

variable {α : Type} {a b : List α}

/-- A longer beginning goes on behind the shorter one. -/
theorem append_prefix_append_of_begins (h : a <+: b) (c d : List α) :
    a ++ c <+: b ++ d ↔ c <+: b.drop a.length ++ d := by
  obtain ⟨rest, rfl⟩ := h
  rw [List.drop_left, List.append_assoc, List.prefix_append_right_inj]

theorem append_prefix_append_of_not (h : ¬ a <+: b) (c d : List α) :
    a ++ c <+: b ++ d ↔ b <+: a ∧ a.drop b.length ++ c <+: d := by
  constructor
  · intro hprefix
    rcases List.prefix_or_prefix_of_prefix ((List.prefix_append a c).trans hprefix) (List.prefix_append b d) with
      hab | hba
    · exact absurd hab h
    · refine ⟨hba, ?_⟩
      obtain ⟨rest, rfl⟩ := hba
      rw [List.append_assoc, List.prefix_append_right_inj] at hprefix
      rwa [List.drop_left]
  · rintro ⟨⟨rest, rfl⟩, hrest⟩
    rw [List.drop_left] at hrest
    rwa [List.append_assoc, List.prefix_append_right_inj]

end Prefixes

/-- A string in lower case. -/
def lowered (s : Bytes) : Bytes := (cstr s).map tolower

/-- What `equalTo` held behind the place of a string, up to a NUL. -/
def staleEqualTo (env : Env) (s : Bytes) : Bytes := cstr ((env.undef 256).drop (strlen s))

/-- What `str2` held behind the place of a string. -/
def staleStr2 (env : Env) (s : Bytes) : Bytes := ((env.var 1).undef 256).drop (strlen s)

/-- What the buffers held does not change the answer: a string that is the beginning goes on in its buffer as the other
    one does, and one that is longer does not find its end in the other buffer. -/
def StaleHarmless (env : Env) (equals str : Bytes) : Prop :=
  lowered equals <+: lowered str ∧
      staleEqualTo env equals <+: (lowered str).drop (strlen equals) ++ staleStr2 env str ∨
    ¬ lowered equals <+: lowered str ∧
      ¬ (lowered str <+: lowered equals ∧
        (lowered equals).drop (strlen str) ++ staleEqualTo env equals <+: staleStr2 env str)

theorem tolower_ne_zero {c : UInt8} (h : c ≠ 0) : tolower c ≠ 0 := by
  unfold tolower
  split
  · rename_i hrange
    obtain ⟨h₁, h₂⟩ := hrange
    intro hzero
    have hsum : (c.toNat + 32) % 256 = 0 := congrArg UInt8.toNat hzero
    have hlow : 65 ≤ c.toNat := h₁
    have hhigh : c.toNat ≤ 90 := h₂
    omega
  · exact h

theorem zero_notMem_lowered (s : Bytes) : 0 ∉ lowered s := by
  intro h
  obtain ⟨c, hc, hzero⟩ := List.mem_map.mp h
  exact tolower_ne_zero (fun h0 => zero_notMem_cstr s (h0 ▸ hc)) hzero

@[simp] theorem length_lowered (s : Bytes) : (lowered s).length = strlen s := List.length_map _

theorem strLower_eq (destination source : Bytes) :
    strLower destination source = lowered source ++ destination.drop (strlen source) := by
  unfold strLower overwrite
  rw [List.length_map]
  rfl

/-- **`strEqual`** without case goes on behind the strings. -/
theorem strEqual_lower_iff (env : Env) (equals str : Bytes) : strEqual env equals str false = true ↔
    lowered equals ++ staleEqualTo env equals <+: lowered str ++ staleStr2 env str := by
  rw [strEqual_iff]
  unfold strEqualCopy
  rw [if_neg (by decide), if_neg (by decide), strLower_eq, strLower_eq, cstr_append (zero_notMem_lowered equals)]
  rfl

/-- **`strEqual` is a test for a prefix** in both modes just if what its buffers held before does no harm. -/
theorem strEqual_prefix_test_iff (env : Env) (equals str : Bytes) :
    ((strEqual env equals str true = true ↔ cstr equals <+: cstr str) ∧
        (strEqual env equals str false = true ↔ lowered equals <+: lowered str)) ↔
      StaleHarmless env equals str := by
  rw [and_iff_right (strEqual_prefix_iff env equals str), strEqual_lower_iff]
  unfold StaleHarmless
  by_cases hprefix : lowered equals <+: lowered str
  · rw [append_prefix_append_of_begins hprefix, length_lowered, iff_true_right hprefix, and_iff_right hprefix,
      or_iff_left (fun h => h.1 hprefix)]
  · rw [append_prefix_append_of_not hprefix, length_lowered, iff_false_right hprefix, and_iff_right hprefix,
      or_iff_right (fun h => hprefix h.1)]

/-- A name does not begin with itself if its buffer held something else. -/
theorem strEqual_stale : ¬ ∀ (env : Env) (equals str : Bytes), strlen equals < 256 → strlen str < 256 →
    (strEqual env equals str true = true ↔ cstr equals <+: cstr str) ∧
      (strEqual env equals str false = true ↔ lowered equals <+: lowered str) := by
  intro hall
  have hlower :=
    (hall { junk := fun j _ => if j = 0 then 120 else 0 } (ascii "a") (ascii "a") (by decide) (by decide)).2
  exact absurd (hlower.mpr (by decide)) (by decide +kernel)

end LavaTunnel
