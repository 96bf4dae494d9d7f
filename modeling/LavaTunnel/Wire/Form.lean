import LavaTunnel.Wire.Json
import Mathlib.Data.List.TakeWhile

/-!
# `Wire.Form` — `application/x-www-form-urlencoded`

A form is sent as `name=value` pairs with an ampersand between them. Whoever reads it cuts at the ampersands, cuts
each pair at its first equals sign, takes a plus for a space, and takes a percent sign and two hexadecimal digits for
a byte. So a writer has to escape these characters. `body` is the writer that does not.

What it writes is read back as it was just if no value needs an escape (`fields_body_iff`).
-/

namespace Wire.Form

/-- The byte of an escape: the two digits after the percent sign. -/
def escaped (c d : UInt8) : Option UInt8 := do return UInt8.ofNat (16 * (← hexDigit c) + (← hexDigit d))

/-- What a reader takes a name or a value for. A percent sign without two digits stands for itself. -/
def unescape : Bytes → Bytes
  | [] => []
  | [c] => [if c = 43 then 32 else c]
  | [c, d] => (if c = 43 then 32 else c) :: unescape [d]
  | c :: d :: e :: rest =>
      if c = 37 then
        match escaped d e with
        | some b => b :: unescape rest
        | none => c :: unescape (d :: e :: rest)
      else (if c = 43 then 32 else c) :: unescape (d :: e :: rest)

/-- A pair, cut at its first equals sign. -/
def field (pair : Bytes) : Bytes × Bytes :=
  (unescape (pair.takeWhile (· ≠ 61)), unescape ((pair.dropWhile (· ≠ 61)).drop 1))

/-- The fields of a body. Between two ampersands there may be nothing. -/
def fields (body : Bytes) : List (Bytes × Bytes) := ((body.splitOn 38).filter (· ≠ [])).map field

/-- A name and a value as they are. -/
def pair (f : Bytes × Bytes) : Bytes := f.1 ++ 61 :: f.2

/-- A body with nothing escaped. -/
def body : List (Bytes × Bytes) → Bytes
  | [] => []
  | [f] => pair f
  | f :: g :: fs => pair f ++ 38 :: body (g :: fs)

/-- A percent sign and two digits. -/
def HasEscape (v : Bytes) : Prop := ∃ c d, escaped c d ≠ none ∧ [37, c, d] <:+: v

/-- Nothing in it needs an escape. -/
structure Plain (v : Bytes) : Prop where
  noAmp : 38 ∉ v
  noPlus : 43 ∉ v
  noEscape : ¬ HasEscape v

/-! ## What is read of a value -/

/-- An escape at the front of what comes after a percent sign. -/
def Ahead (rest : Bytes) : Prop := ∃ d e more, rest = d :: e :: more ∧ escaped d e ≠ none

/-- One step of the reader: an escape, or a character. -/
theorem unescape_cons (c : UInt8) (rest : Bytes) :
    (c = 37 ∧ ∃ d e more b, rest = d :: e :: more ∧ escaped d e = some b ∧
        unescape (c :: rest) = b :: unescape more) ∨
      (¬ (c = 37 ∧ Ahead rest) ∧ unescape (c :: rest) = (if c = 43 then 32 else c) :: unescape rest) := by
  match rest with
  | [] => exact Or.inr ⟨fun h => by simp [Ahead] at h, rfl⟩
  | [d] => exact Or.inr ⟨fun h => by simp [Ahead] at h, rfl⟩
  | d :: e :: more =>
      by_cases hc : c = 37
      · cases hb : escaped d e with
        | some b =>
            refine Or.inl ⟨hc, d, e, more, b, rfl, hb, ?_⟩
            rw [unescape, if_pos hc, hb]
        | none =>
            refine Or.inr ⟨?_, ?_⟩
            · rintro ⟨-, d', e', more', heq, hsome⟩
              injection heq with hd heq
              injection heq with he heq
              rw [← hd, ← he] at hsome
              exact hsome hb
            · rw [unescape, if_pos hc, hb, if_neg (by rw [hc]; decide)]
      · refine Or.inr ⟨fun h => hc h.1, ?_⟩
        rw [unescape, if_neg hc]

/-- A reader takes nothing for more than it is. -/
theorem length_unescape_le (v : Bytes) : (unescape v).length ≤ v.length := by
  induction hn : v.length using Nat.strong_induction_on generalizing v with
  | _ n ih =>
      cases v with
      | nil => exact Nat.zero_le _
      | cons c rest =>
          rw [List.length_cons] at hn
          rcases unescape_cons c rest with ⟨-, d, e, more, b, rfl, -, heq⟩ | ⟨-, heq⟩
          · have hmore := ih more.length (by simp at hn; omega) more rfl
            rw [heq, List.length_cons]
            simp at hn
            omega
          · have hrest := ih rest.length (by omega) rest rfl
            rw [heq, List.length_cons]
            omega

theorem hasEscape_cons {c : UInt8} {rest : Bytes} :
    HasEscape (c :: rest) ↔ (c = 37 ∧ Ahead rest) ∨ HasEscape rest := by
  unfold HasEscape Ahead
  constructor
  · rintro ⟨d, e, hb, hin⟩
    rcases List.infix_cons_iff.mp hin with ⟨more, hfront⟩ | hin
    · injection hfront with hc hfront
      exact Or.inl ⟨hc.symm, d, e, more, hfront.symm, hb⟩
    · exact Or.inr ⟨d, e, hb, hin⟩
  · rintro (⟨rfl, d, e, more, rfl, hb⟩ | ⟨d, e, hb, hin⟩)
    · exact ⟨d, e, hb, List.infix_cons_iff.mpr (Or.inl ⟨more, rfl⟩)⟩
    · exact ⟨d, e, hb, List.infix_cons_iff.mpr (Or.inr hin)⟩

/-- **A value is read as it is** just if there is no plus and no escape in it. -/
theorem unescape_eq_self_iff (v : Bytes) : unescape v = v ↔ 43 ∉ v ∧ ¬ HasEscape v := by
  induction v with
  | nil => simp [unescape, HasEscape]
  | cons c rest ih =>
      rw [hasEscape_cons, List.mem_cons, not_or, not_or]
      rcases unescape_cons c rest with ⟨hc, d, e, more, b, rfl, hb, heq⟩ | ⟨hnone, heq⟩
      · -- an escape is longer than its byte
        have hlen := length_unescape_le more
        have hahead : Ahead (d :: e :: more) := ⟨d, e, more, rfl, by rw [hb]; simp⟩
        constructor
        · intro hself
          rw [heq] at hself
          have hcount := congrArg List.length hself
          simp only [List.length_cons] at hcount
          omega
        · intro hplain
          exact absurd ⟨hc, hahead⟩ hplain.2.1
      · rw [heq]
        constructor
        · intro hself
          injection hself with hhead htail
          obtain ⟨hplus, hescape⟩ := ih.mp htail
          refine ⟨⟨fun h43 => ?_, hplus⟩, hnone, hescape⟩
          rw [if_pos h43.symm] at hhead
          exact absurd (hhead.trans h43.symm) (by decide)
        · rintro ⟨⟨h43, hplus⟩, -, hescape⟩
          rw [if_neg (Ne.symm h43), ih.mpr ⟨hplus, hescape⟩]

/-! ## What is read of a body -/

/-- A name needs no escape, and there is no equals sign in it. -/
structure PlainName (n : Bytes) : Prop extends Plain n where
  noEquals : 61 ∉ n

/-- Without a percent sign there is no escape. -/
theorem plainName_of {n : Bytes} (h38 : 38 ∉ n) (h43 : 43 ∉ n) (h37 : 37 ∉ n) (h61 : 61 ∉ n) : PlainName n := by
  refine ⟨⟨h38, h43, ?_⟩, h61⟩
  rintro ⟨c, d, -, hin⟩
  exact h37 (hin.subset List.mem_cons_self)

/-- Of a pair the name and the value are read. -/
theorem field_pair {n : Bytes} (hn : PlainName n) (v : Bytes) : field (pair (n, v)) = (n, unescape v) := by
  have hname := forall_ne_of_notMem hn.noEquals
  have hself : unescape n = n := (unescape_eq_self_iff n).mpr ⟨hn.noPlus, hn.noEscape⟩
  unfold field pair
  rw [List.takeWhile_append_of_pos hname, List.dropWhile_append_of_pos hname]
  simp [hself]

theorem amp_notMem_pair {n v : Bytes} (hn : 38 ∉ n) (hv : 38 ∉ v) : 38 ∉ pair (n, v) := by
  unfold pair
  simp [hn, hv]

/-- A pair without an ampersand, and nothing else. -/
theorem fields_pair {n v : Bytes} (hn : PlainName n) (hv : 38 ∉ v) : fields (pair (n, v)) = [(n, unescape v)] := by
  have hne : pair (n, v) ≠ [] := by simp [pair]
  unfold fields
  rw [List.splitOn_eq_singleton (amp_notMem_pair hn.noAmp hv), ← field_pair hn v]
  simp [hne]

/-- A pair without an ampersand, in front of others. -/
theorem fields_pair_append {n v : Bytes} (hn : PlainName n) (hv : 38 ∉ v) (rest : Bytes) :
    fields (pair (n, v) ++ 38 :: rest) = (n, unescape v) :: fields rest := by
  have hne : pair (n, v) ≠ [] := by simp [pair]
  unfold fields
  rw [List.splitOn_append_cons_self_of_not_mem (amp_notMem_pair hn.noAmp hv), ← field_pair hn v]
  simp [hne]

section Body

variable {n v : Bytes} (hn : PlainName n) (fs : List (Bytes × Bytes))
include hn

/-- A value without an ampersand keeps its place. -/
theorem fields_body_cons (hv : 38 ∉ v) : fields (body ((n, v) :: fs)) = (n, unescape v) :: fields (body fs) := by
  cases fs with
  | nil => exact fields_pair hn hv
  | cons g fs => exact fields_pair_append hn hv _

/-- Of a value with an ampersand less is read. -/
theorem fields_body_amp (hv : 38 ∈ v) : (fields (body ((n, v) :: fs))).head? ≠ some (n, v) := by
  obtain ⟨a, more, rfl, ha⟩ := List.eq_append_cons_of_mem hv
  have hcut : ∃ rest, body ((n, a ++ 38 :: more) :: fs) = pair (n, a) ++ 38 :: rest := by
    cases fs with
    | nil => exact ⟨more, by simp [body, pair]⟩
    | cons g fs => exact ⟨more ++ 38 :: body (g :: fs), by simp [body, pair]⟩
  obtain ⟨rest, hrest⟩ := hcut
  rw [hrest, fields_pair_append hn ha]
  intro hhead
  have hvalue : unescape a = a ++ 38 :: more := congrArg Prod.snd (Option.some.inj hhead)
  have hlen := length_unescape_le a
  rw [hvalue, List.length_append, List.length_cons] at hlen
  omega

end Body

/-- **A body with nothing escaped is read back** just if there was nothing to escape. -/
theorem fields_body_iff {fs : List (Bytes × Bytes)} (hnames : ∀ f ∈ fs, PlainName f.1) :
    fields (body fs) = fs ↔ ∀ f ∈ fs, Plain f.2 := by
  induction fs with
  | nil => simp [body, fields]
  | cons f fs ih =>
      obtain ⟨n, v⟩ := f
      obtain ⟨hn, hrest⟩ := List.forall_mem_cons.mp hnames
      rw [List.forall_mem_cons]
      by_cases hv : 38 ∈ v
      · constructor
        · intro hread
          exact absurd (by rw [hread]; rfl) (fields_body_amp hn fs hv)
        · intro hplain
          exact absurd hv hplain.1.noAmp
      · rw [fields_body_cons hn fs hv]
        constructor
        · intro hread
          injection hread with hhead htail
          obtain ⟨hplus, hescape⟩ := (unescape_eq_self_iff v).mp (congrArg Prod.snd hhead)
          exact ⟨⟨hv, hplus, hescape⟩, (ih hrest).mp htail⟩
        · rintro ⟨hplain, hfs⟩
          rw [(unescape_eq_self_iff v).mpr ⟨hplain.noPlus, hplain.noEscape⟩, (ih hrest).mpr hfs]

end Wire.Form
