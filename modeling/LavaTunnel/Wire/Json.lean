import Mathlib.Algebra.Field.Rat
import LavaTunnel.Wire.Prog

/-!
# `Wire.Json` — JSON texts, and where their tokens are

A JSON text as it was written: a value, with the white space between its parts. A tokenizer that builds no tree says
where each value and each name begins and ends, in the order in which they begin. What it is for is that a token can
be cut out of the text again.
-/

namespace Wire

/-! ## Texts -/

/-- The name of a member, and the white space around the colon. -/
structure Label where
  name : Bytes
  gap : Bytes
  space : Bytes

mutual

/-- A value. The text of a string is what is between the quotes. -/
inductive Json where
  | string (raw : Bytes)
  | primitive (raw : Bytes)
  | array (items : Items)
  | object (items : Items)

/-- What is inside an array or an object: `gap` is the white space at the end. -/
inductive Items where
  | nil (gap : Bytes)
  | cons (before : Bytes) (label : Option Label) (value : Json) (after : Bytes) (rest : Items)

end

def Label.text (l : Label) : Bytes := 34 :: (l.name ++ 34 :: (l.gap ++ 58 :: l.space))

/-- The name in front of a value, if there is one. -/
def labelText (label : Option Label) : Bytes := label.elim [] Label.text

/-- The comma in front of what is left. -/
def Items.comma : Items → Bytes
  | .nil _ => []
  | .cons .. => [44]

mutual

def Json.text : Json → Bytes
  | .string raw => 34 :: (raw ++ [34])
  | .primitive raw => raw
  | .array items => 91 :: (items.text ++ [93])
  | .object items => 123 :: (items.text ++ [125])

def Items.text : Items → Bytes
  | .nil gap => gap
  | .cons before label value after rest =>
      before ++ (labelText label ++ (value.text ++ (after ++ (rest.comma ++ rest.text))))

end

/-! ## Well-formed texts -/

/-- White space. -/
def isGap (gap : Bytes) : Bool := gap.all fun c => c == 32 || c == 9 || c == 10 || c == 13

def isDigit (c : UInt8) : Bool := 48 ≤ c && c ≤ 57

/-- The value of a hexadecimal digit. -/
def hexDigit (c : UInt8) : Option Nat :=
  if isDigit c then some (c.toNat - 48)
  else if 97 ≤ c && c ≤ 102 then some (c.toNat - 87)
  else if 65 ≤ c && c ≤ 70 then some (c.toNat - 55)
  else none

/-- The four digits of a `\u` escape. -/
def hex4 (a b c d : UInt8) : Option Nat := do
  return 4096 * (← hexDigit a) + 256 * (← hexDigit b) + 16 * (← hexDigit c) + (← hexDigit d)

/-- What may be between the quotes. -/
def isString : Bytes → Bool
  | [] => true
  | 92 :: 117 :: a :: b :: c :: d :: rest => (hex4 a b c d).isSome && isString rest
  | 92 :: c :: rest => [34, 92, 47, 98, 102, 110, 114, 116].contains c && isString rest
  | c :: rest => 32 ≤ c && c != 34 && c != 92 && isString rest

/-- The exponent of a number, or nothing. -/
def isExponent : Bytes → Bool
  | [] => true
  | e :: rest =>
      let digits := if rest.head? = some 43 ∨ rest.head? = some 45 then rest.tail else rest
      (e == 69 || e == 101) && !digits.isEmpty && digits.all isDigit

/-- What may come after the integer part of a number. -/
def isFraction : Bytes → Bool
  | 46 :: rest => !(rest.takeWhile isDigit).isEmpty && isExponent (rest.dropWhile isDigit)
  | rest => isExponent rest

def isNumber (raw : Bytes) : Bool :=
  let unsigned := if raw.head? = some 45 then raw.tail else raw
  let integer := unsigned.takeWhile isDigit
  !integer.isEmpty && (integer.length == 1 || integer.head? != some 48) && isFraction (unsigned.dropWhile isDigit)

/-- `true`, `false`, `null`, or a number. -/
def isPrimitive (raw : Bytes) : Bool :=
  raw == [116, 114, 117, 101] || raw == [102, 97, 108, 115, 101] || raw == [110, 117, 108, 108] || isNumber raw

def Label.wellFormed (l : Label) : Bool := isString l.name && isGap l.gap && isGap l.space

mutual

def Json.wellFormed : Json → Bool
  | .string raw => isString raw
  | .primitive raw => isPrimitive raw
  | .array items => items.wellFormed false
  | .object items => items.wellFormed true

/-- The values of an object have names, those of an array have none. -/
def Items.wellFormed (labelled : Bool) : Items → Bool
  | .nil gap => isGap gap
  | .cons before label value after rest =>
      isGap before && (label.isSome == labelled && label.all Label.wellFormed) && value.wellFormed && isGap after &&
        rest.wellFormed labelled

end

/-! ## Meanings -/

/-- A character of a string, in UTF-8. -/
def utf8 (code : Nat) : Bytes := String.utf8EncodeChar
    (if code.isValidChar then Char.ofNat code else Char.ofNat 0xFFFD)

/-- What an escaped character stands for. -/
def escaped (c : UInt8) : UInt8 :=
  if c = 98 then 8
  else if c = 102 then 12
  else if c = 110 then 10
  else if c = 114 then 13
  else if c = 116 then 9
  else c

/-- The string that is written between the quotes. Two `\u` escapes may write one character together. -/
def unescape : Bytes → Bytes
  | [] => []
  | 92 :: 117 :: a :: b :: c :: d :: 92 :: 117 :: e :: f :: g :: h :: rest =>
      let high := (hex4 a b c d).getD 0
      let low := (hex4 e f g h).getD 0
      if 0xD800 ≤ high ∧ high < 0xDC00 ∧ 0xDC00 ≤ low ∧ low < 0xE000 then
        utf8 (0x10000 + 0x400 * (high - 0xD800) + (low - 0xDC00)) ++ unescape rest
      else utf8 high ++ unescape (92 :: 117 :: e :: f :: g :: h :: rest)
  | 92 :: 117 :: a :: b :: c :: d :: rest => utf8 ((hex4 a b c d).getD 0) ++ unescape rest
  | 92 :: c :: rest => escaped c :: unescape rest
  | c :: rest => c :: unescape rest

/-- The number that digits write. -/
def natOf (digits : Bytes) : Nat := digits.foldl (fun n d => 10 * n + (d.toNat - 48)) 0

/-- The number that a text writes. -/
def numeric (raw : Bytes) : ℚ :=
  let unsigned := if raw.head? = some 45 then raw.tail else raw
  let fraction := match unsigned.dropWhile isDigit with
    | 46 :: rest => rest.takeWhile isDigit
    | _ => []
  let exponent : Int := match unsigned.dropWhile fun c => c != 69 && c != 101 with
    | _ :: 45 :: digits => -natOf digits
    | _ :: 43 :: digits => natOf digits
    | _ :: digits => natOf digits
    | [] => 0
  (if raw.head? = some 45 then -1 else 1) * natOf (unsigned.takeWhile isDigit ++ fraction) *
    10 ^ (exponent - fraction.length)

/-! ## Tokens -/

/-- The range of a token: its first byte, and the one behind its last. -/
structure Token where
  start : Int
  stop : Int
deriving DecidableEq

/-- The token of `n` bytes at `i`. -/
def Token.at (i n : Nat) : Token := ⟨i, i + n⟩

/-- The token of a name at `i`. -/
def labelTokens (i : Nat) (label : Option Label) : List Token :=
  label.elim [] fun l => [Token.at (i + 1) l.name.length]

mutual

/-- The tokens of a value at `i`. -/
def Json.tokens (i : Nat) : Json → List Token
  | .string raw => [Token.at (i + 1) raw.length]
  | .primitive raw => [Token.at i raw.length]
  | .array items => Token.at i (items.text.length + 2) :: items.tokens (i + 1)
  | .object items => Token.at i (items.text.length + 2) :: items.tokens (i + 1)

def Items.tokens (i : Nat) : Items → List Token
  | .nil _ => []
  | .cons before label value after rest =>
      let j := i + before.length
      let k := j + (labelText label).length
      labelTokens j label ++ (value.tokens k ++ rest.tokens (k + (value.text ++ after ++ rest.comma).length))

end

/-- A text with a value in it. -/
structure Document where
  lead : Bytes
  value : Json
  trail : Bytes

def Document.text (d : Document) : Bytes := d.lead ++ d.value.text ++ d.trail

def Document.wellFormed (d : Document) : Bool := isGap d.lead && d.value.wellFormed && isGap d.trail

def Document.tokens (d : Document) : List Token := d.value.tokens d.lead.length

/-! ## Objects of scalar values -/

/-- A value with its name and the white space around it. -/
structure Member where
  before : Bytes
  label : Label
  value : Json
  after : Bytes

/-- The inside of an object. -/
def Items.ofMembers (gap : Bytes) : List Member → Items
  | [] => .nil gap
  | m :: ms => .cons m.before (some m.label) m.value m.after (Items.ofMembers gap ms)

/-- A value with no values in it. -/
def Json.isScalar : Json → Bool
  | .string _ => true
  | .primitive _ => true
  | _ => false

/-- What the token of a scalar value is. -/
def Json.content : Json → Bytes
  | .string raw => raw
  | .primitive raw => raw
  | _ => []

/-- What a scalar value stands for, as a text. -/
def Json.meaning : Json → Bytes
  | .string raw => unescape raw
  | .primitive raw => raw
  | _ => []

/-- The name of a member. -/
def Member.name (m : Member) : Bytes := unescape m.label.name

/-! ## Cutting tokens out -/

/-- The token is this piece of the text. -/
def Token.Cuts (tok : Token) (text piece : Bytes) : Prop :=
  ∃ before after, text = before ++ piece ++ after ∧ tok = Token.at before.length piece.length

section Tokens

variable {v : Json} {ms : List Member} {m : Member}

/-- A scalar value is one token. -/
theorem Json.tokens_scalar (h : v.isScalar = true) (before after : Bytes) :
    ∃ tok : Token, v.tokens before.length = [tok] ∧ tok.Cuts (before ++ v.text ++ after) v.content := by
  cases v with
  | string raw =>
      refine ⟨Token.at (before.length + 1) raw.length, rfl, before ++ [34], 34 :: after, ?_, ?_⟩
      · simp [Json.text, Json.content]
      · rw [List.length_append]
        rfl
  | primitive raw => exact ⟨Token.at before.length raw.length, rfl, before, after, rfl, rfl⟩
  | array items => exact absurd h Bool.false_ne_true
  | object items => exact absurd h Bool.false_ne_true

theorem Json.length_tokens_scalar (h : v.isScalar = true) (i : Nat) : (v.tokens i).length = 1 := by
  cases v with
  | string raw => rfl
  | primitive raw => rfl
  | array items => exact absurd h Bool.false_ne_true
  | object items => exact absurd h Bool.false_ne_true

/-- Two tokens a member. -/
theorem Items.length_tokens_ofMembers (h : ∀ m ∈ ms, m.value.isScalar = true) (gap : Bytes) (i : Nat) :
    ((Items.ofMembers gap ms).tokens i).length = 2 * ms.length := by
  induction ms generalizing i with
  | nil => rfl
  | cons m ms ih =>
      have hrest := ih (fun m' hm => h m' (List.mem_cons_of_mem m hm))
      simp only [Items.ofMembers, Items.tokens, labelTokens, Option.elim_some, List.length_append,
        Json.length_tokens_scalar (h m List.mem_cons_self), hrest, List.length_cons, List.length_nil]
      omega

/-- **The value of a member** is the second of its two tokens. -/
theorem Items.cuts_ofMembers (h : ∀ m ∈ ms, m.value.isScalar = true) {k : Nat} (hk : ms[k]? = some m)
    (gap before after : Bytes) : ∃ tok : Token, ((Items.ofMembers gap ms).tokens before.length)[2 * k + 1]? =
      some tok ∧
      tok.Cuts (before ++ (Items.ofMembers gap ms).text ++ after) m.value.content := by
  induction ms generalizing k before with
  | nil => exact absurd hk (by simp)
  | cons m' ms ih =>
      -- the text before the value, and before the members behind it
      let value := before ++ m'.before ++ m'.label.text
      let rest := value ++ m'.value.text ++ m'.after ++ (Items.ofMembers gap ms).comma
      have hvalue : value.length = before.length + m'.before.length + m'.label.text.length := by
        simp only [value, List.length_append]
      have hrest : rest.length = value.length +
        (m'.value.text ++ m'.after ++ (Items.ofMembers gap ms).comma).length := by
        simp only [rest, List.length_append, Nat.add_assoc]
      have htext : before ++ (Items.ofMembers gap (m' :: ms)).text ++ after =
          rest ++ (Items.ofMembers gap ms).text ++ after := by
        simp [rest, value, Items.ofMembers, Items.text, labelText]
      obtain ⟨tok, htok, hcuts⟩ := Json.tokens_scalar (h m' List.mem_cons_self) value
        (m'.after ++ (Items.ofMembers gap ms).comma ++ (Items.ofMembers gap ms).text ++ after)
      have htokens : (Items.ofMembers gap (m' :: ms)).tokens before.length =
          Token.at (before.length + m'.before.length + 1) m'.label.name.length ::
            tok :: (Items.ofMembers gap ms).tokens rest.length := by
        show _ :: (m'.value.tokens (before.length + m'.before.length + m'.label.text.length) ++
          (Items.ofMembers gap ms).tokens (before.length + m'.before.length + m'.label.text.length + _)) = _
        rw [← hvalue, ← hrest, htok]
        rfl
      rw [htokens, htext]
      cases k with
      | zero =>
          obtain rfl : m' = m := by simpa using hk
          refine ⟨tok, rfl, ?_⟩
          have hsplit : rest ++ (Items.ofMembers gap ms).text ++ after = value ++ m'.value.text ++
              (m'.after ++ (Items.ofMembers gap ms).comma ++ (Items.ofMembers gap ms).text ++ after) := by
            simp only [rest, List.append_assoc]
          rw [hsplit]
          exact hcuts
      | succ k =>
          obtain ⟨tok', htok', hcuts'⟩ := ih (fun n hn => h n (List.mem_cons_of_mem m' hn)) (by simpa using hk) rest
          exact ⟨tok', htok', hcuts'⟩

end Tokens

/-! ## A text is a C string -/

section NoZero

variable {raw : Bytes}

theorem zero_notMem_gap {gap : Bytes} (h : isGap gap = true) : 0 ∉ gap :=
  fun hmem => absurd (List.all_eq_true.mp h 0 hmem) (by decide)

theorem zero_notMem_digits (h : raw.all isDigit = true) : 0 ∉ raw :=
  fun hmem => absurd (List.all_eq_true.mp h 0 hmem) (by decide)

/-- The digits in front. -/
theorem zero_notMem_takeWhile (raw : Bytes) : 0 ∉ raw.takeWhile isDigit := zero_notMem_digits List.all_takeWhile

theorem hexDigit_ne_zero {c : UInt8} (h : (hexDigit c).isSome) : c ≠ 0 := by
  rintro rfl
  exact absurd h (by decide)

theorem hex4_isSome {a b c d : UInt8} (h : (hex4 a b c d).isSome) :
    (hexDigit a).isSome ∧ (hexDigit b).isSome ∧ (hexDigit c).isSome ∧ (hexDigit d).isSome := by
  unfold hex4 at h
  cases ha : hexDigit a <;> cases hb : hexDigit b <;> cases hc : hexDigit c <;> cases hd : hexDigit d <;> simp_all

theorem zero_notMem_string (h : isString raw = true) : 0 ∉ raw := by
  fun_induction isString raw with
  | case1 => exact List.not_mem_nil
  | case2 a b c d rest ih =>
      rw [Bool.and_eq_true] at h
      obtain ⟨ha, hb, hc, hd⟩ := hex4_isSome h.1
      have hrest := ih h.2
      simp [(hexDigit_ne_zero ha).symm, (hexDigit_ne_zero hb).symm, (hexDigit_ne_zero hc).symm,
        (hexDigit_ne_zero hd).symm, hrest]
  | case3 c rest hc ih =>
      rw [Bool.and_eq_true] at h
      have hne : c ≠ 0 := by
        rintro rfl
        exact absurd h.1 (by decide)
      simp [hne.symm, ih h.2]
  | case4 c rest _ _ ih =>
      simp only [Bool.and_eq_true, decide_eq_true_eq] at h
      have hne : c ≠ 0 := by
        rintro rfl
        exact absurd h.1.1.1 (by decide)
      simp [hne.symm, ih h.2]

theorem zero_notMem_exponent (h : isExponent raw = true) : 0 ∉ raw := by
  cases raw with
  | nil => exact List.not_mem_nil
  | cons e rest =>
      simp only [isExponent, Bool.and_eq_true] at h
      obtain ⟨⟨he, _⟩, hdigits⟩ := h
      have hne : e ≠ 0 := by
        rintro rfl
        exact absurd he (by decide)
      have hrest : 0 ∉ rest := by
        intro hmem
        by_cases hsign : rest.head? = some 43 ∨ rest.head? = some 45
        · rw [if_pos hsign] at hdigits
          cases rest with
          | nil => exact absurd hmem List.not_mem_nil
          | cons c rest =>
              rcases List.mem_cons.mp hmem with rfl | hmem
              · simp at hsign
              · exact zero_notMem_digits hdigits hmem
        · rw [if_neg hsign] at hdigits
          exact zero_notMem_digits hdigits hmem
      exact List.not_mem_cons_of_ne_of_not_mem hne.symm hrest

theorem zero_notMem_fraction (h : isFraction raw = true) : 0 ∉ raw := by
  fun_cases isFraction raw with
  | case1 rest =>
      rw [isFraction, Bool.and_eq_true] at h
      have hdrop := zero_notMem_exponent h.2
      rw [← List.takeWhile_append_dropWhile (p := isDigit) (l := rest)]
      exact List.not_mem_cons_of_ne_of_not_mem (by decide) (List.not_mem_append (zero_notMem_takeWhile rest) hdrop)
  | case2 _ hdot =>
      rw [isFraction.eq_2 raw hdot] at h
      exact zero_notMem_exponent h

theorem zero_notMem_number (h : isNumber raw = true) : 0 ∉ raw := by
  have hunsigned : ∀ unsigned : Bytes, isFraction (unsigned.dropWhile isDigit) = true → 0 ∉ unsigned := by
    intro unsigned hfraction
    rw [← List.takeWhile_append_dropWhile (p := isDigit) (l := unsigned)]
    exact List.not_mem_append (zero_notMem_takeWhile unsigned) (zero_notMem_fraction hfraction)
  simp only [isNumber, Bool.and_eq_true] at h
  have hfraction := h.2
  by_cases hminus : raw.head? = some 45
  · rw [if_pos hminus] at hfraction
    obtain ⟨rest, rfl⟩ := List.head?_eq_some_iff.mp hminus
    exact List.not_mem_cons_of_ne_of_not_mem (by decide) (hunsigned rest hfraction)
  · rw [if_neg hminus] at hfraction
    exact hunsigned raw hfraction

theorem zero_notMem_primitive (h : isPrimitive raw = true) : 0 ∉ raw := by
  simp only [isPrimitive, Bool.or_eq_true, beq_iff_eq] at h
  rcases h with ((rfl | rfl) | rfl) | h
  · decide
  · decide
  · decide
  · exact zero_notMem_number h

theorem zero_notMem_label {label : Option Label} (h : label.all Label.wellFormed = true) : 0 ∉ labelText label := by
  cases label with
  | none => exact List.not_mem_nil
  | some l =>
      simp only [Option.all_some, Label.wellFormed, Bool.and_eq_true] at h
      obtain ⟨⟨hname, hgap⟩, hspace⟩ := h
      simp [labelText, Label.text, zero_notMem_string hname, zero_notMem_gap hgap, zero_notMem_gap hspace]

mutual

theorem Json.zero_notMem_text : ∀ v : Json, v.wellFormed = true → 0 ∉ v.text
  | .string raw, h => by
      rw [Json.wellFormed] at h
      simp [Json.text, zero_notMem_string h]
  | .primitive raw, h => by
      rw [Json.wellFormed] at h
      exact zero_notMem_primitive h
  | .array items, h => by
      rw [Json.wellFormed] at h
      simp [Json.text, Items.zero_notMem_text false items h]
  | .object items, h => by
      rw [Json.wellFormed] at h
      simp [Json.text, Items.zero_notMem_text true items h]

theorem Items.zero_notMem_text (labelled : Bool) : ∀ is : Items, is.wellFormed labelled = true → 0 ∉ is.text
  | .nil gap, h => by
      rw [Items.wellFormed] at h
      exact zero_notMem_gap h
  | .cons before label value after rest, h => by
      simp only [Items.wellFormed, Bool.and_eq_true] at h
      obtain ⟨⟨⟨⟨hbefore, _, hlabel⟩, hvalue⟩, hafter⟩, hrest⟩ := h
      have hcomma : 0 ∉ rest.comma := by
        cases rest with
        | nil gap => exact List.not_mem_nil
        | cons _ _ _ _ _ => exact (by decide : (0 : UInt8) ∉ [44])
      simp [Items.text, zero_notMem_gap hbefore, zero_notMem_label hlabel, Json.zero_notMem_text value hvalue,
        zero_notMem_gap hafter, hcomma, Items.zero_notMem_text labelled rest hrest]

end

theorem Document.zero_notMem_text {d : Document} (h : d.wellFormed = true) : 0 ∉ d.text := by
  simp only [Document.wellFormed, Bool.and_eq_true] at h
  simp [Document.text, zero_notMem_gap h.1.1, Json.zero_notMem_text d.value h.1.2, zero_notMem_gap h.2]

end NoZero

end Wire
