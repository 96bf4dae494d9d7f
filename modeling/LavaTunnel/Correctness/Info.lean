import LavaTunnel.Info
import LavaTunnel.Correctness.Text
import Mathlib.Data.List.DropRight

/-!
# `LavaTunnel.Correctness.Info` — what the saved connection info reads as

The reader takes words, the writer puts whole fields between newlines: what was saved is read again just if no
field has white space in it, and if what `sprintf` wrote behind its buffer does no harm. For `info.txt` that is
the terminator, for which `tinfo` has no room; for `direct.txt` it is what comes behind the 70 bytes of `direct`.
-/

namespace LavaTunnel

open Wire

/-- No white space. -/
def Clean (s : Bytes) : Prop := ∀ c ∈ s, isspace c = false

/-- A line as `getstr` returns it, of more than one character. -/
structure IsLine (s : Bytes) : Prop where
  long : 2 ≤ s.length
  fits : s.length ≤ 63
  noNul : 0 ∉ s
  noNewline : 10 ∉ s

/-- What is found behind a buffer does not go on with the last word. -/
def EndsWord (found : Bytes) : Prop := ∀ c, (cstr found).head? = some c → isspace c = true

/-! ## Words -/

section Words

variable {s rest file w : Bytes}

theorem takeWhile_clean (hs : Clean s) :
    (s ++ rest).takeWhile (fun c => !isspace c) = s ++ rest.takeWhile fun c => !isspace c :=
  List.takeWhile_append_of_pos (fun c hc => by simp [hs c hc])

theorem dropWhile_clean (hs : Clean s) :
    (s ++ rest).dropWhile (fun c => !isspace c) = rest.dropWhile fun c => !isspace c :=
  List.dropWhile_append_of_pos (fun c hc => by simp [hs c hc])

/-- White space in front of a word is skipped. -/
theorem scanWord_cons {c : UInt8} (hc : isspace c = true) : scanWord (c :: file) = scanWord file := by
  unfold scanWord
  rw [List.dropWhile_cons_of_pos hc]

theorem scanWord_dropWhile : scanWord (file.dropWhile isspace) = scanWord file := by
  induction file with
  | nil => rfl
  | cons c file ih =>
      by_cases hc : isspace c = true
      · rw [List.dropWhile_cons_of_pos hc, ih, scanWord_cons hc]
      · rw [List.dropWhile_cons_of_neg hc]

/-- **A clean field is read**, with what follows it up to the next white space. -/
theorem scanWord_append (hs : Clean s) (hne : s ≠ []) (rest : Bytes) :
    scanWord (s ++ rest) = (some (s ++ rest.takeWhile fun c => !isspace c),
      (rest.dropWhile fun c => !isspace c).dropWhile isspace) := by
  obtain ⟨c, s', rfl⟩ := List.exists_cons_of_ne_nil hne
  have hc : ¬ isspace c = true := by simp [hs c List.mem_cons_self]
  have hstart : (c :: s' ++ rest).dropWhile isspace = c :: s' ++ rest := List.dropWhile_cons_of_neg hc
  unfold scanWord
  dsimp only
  rw [hstart, if_neg (by simp), takeWhile_clean hs, dropWhile_clean hs]

/-- A clean field on a line of its own. -/
theorem scanWord_line (hs : Clean s) (hne : s ≠ []) (rest : Bytes) :
    scanWord (s ++ 10 :: rest) = (some s, rest.dropWhile isspace) := by
  rw [scanWord_append hs hne, List.takeWhile_cons_of_neg (by decide), List.append_nil,
    List.dropWhile_cons_of_neg (by decide), List.dropWhile_cons_of_pos (by decide)]

/-- A word is clean, and not empty. -/
theorem clean_of_scanWord (h : (scanWord file).1 = some w) : Clean w ∧ w ≠ [] := by
  unfold scanWord at h
  dsimp only at h
  cases hfile : file.dropWhile isspace with
  | nil =>
      rw [hfile, if_pos rfl] at h
      exact absurd h (by simp)
  | cons c rest =>
      have hc : isspace c = false := by
        have hhead := List.head_dropWhile_not (p := isspace) (l := file) (by simp [hfile])
        simpa [hfile] using hhead
      rw [hfile, if_neg (by simp)] at h
      obtain rfl := Option.some.inj h
      refine ⟨fun d hd => by simpa using List.mem_takeWhile_imp hd, ?_⟩
      rw [List.takeWhile_cons_of_pos (by simp [hc])]
      simp

/-- What is read is a word, or what was there before. -/
theorem read_cases {before : Bytes} (h : (scanWord file).1.getD before = w) (hne : w ≠ before) :
    Clean w ∧ w ≠ [] := by
  cases hword : (scanWord file).1 with
  | none =>
      rw [hword] at h
      exact absurd h.symm hne
  | some w' =>
      rw [hword] at h
      obtain rfl : w' = w := h
      exact clean_of_scanWord hword

end Words

/-! ## Numbers -/

section Numbers

/-- A digit as a character, and as a byte. -/
theorem isdigit_ofNat {c : Char} (h : c.isDigit = true) :
    isdigit (UInt8.ofNat c.toNat) = true ∧ (UInt8.ofNat c.toNat).toNat = c.toNat := by
  have hrange := Char.isDigit_iff_toNat.mp h
  have hlow : 48 ≤ c.toNat := hrange.1
  have hhigh : c.toNat ≤ 57 := hrange.2
  have hnat : (UInt8.ofNat c.toNat).toNat = c.toNat := by
    rw [UInt8.toNat_ofNat']
    omega
  refine ⟨?_, hnat⟩
  unfold isdigit
  rw [Bool.and_eq_true, decide_eq_true_eq, decide_eq_true_eq, UInt8.le_iff_toNat_le, UInt8.le_iff_toNat_le, hnat]
  exact ⟨hlow, hhigh⟩

theorem decimal_eq (n : Nat) : decimal n = (Nat.toDigits 10 n).map fun c => UInt8.ofNat c.toNat := by
  show (toString n).toList.map _ = _
  rw [Nat.toString_eq_ofList_toDigits, String.toList_ofList]

theorem isDigit_of_mem {n : Nat} {c : Char} (h : c ∈ Nat.toDigits 10 n) : c.isDigit = true :=
  Nat.isDigit_of_mem_toDigits (by decide) (by decide) h

/-- The bytes of a decimal are digits. -/
theorem digit_of_mem_decimal {n : Nat} {b : UInt8} (h : b ∈ decimal n) : isdigit b = true := by
  rw [decimal_eq] at h
  obtain ⟨c, hc, rfl⟩ := List.mem_map.mp h
  exact (isdigit_ofNat (isDigit_of_mem hc)).1

theorem decimal_ne_nil (n : Nat) : decimal n ≠ [] := by
  rw [decimal_eq]
  simp [Nat.toDigits_ne_nil]

/-- The digits of a number, as they are read. -/
theorem digits_map {cs : List Char} (hcs : ∀ c ∈ cs, c.isDigit = true) {rest : Bytes}
    (hrest : rest.takeWhile isdigit = []) (acc : Nat) :
    digits acc (cs.map (fun c => UInt8.ofNat c.toNat) ++ rest) = Nat.ofDigitChars 10 cs acc := by
  -- the accumulator of `digits` is the one of `Nat.ofDigitChars`
  induction cs generalizing acc with
  | nil =>
      rw [List.map_nil, List.nil_append, Nat.ofDigitChars_nil]
      cases rest with
      | nil => rfl
      | cons b rest =>
          have hb : ¬ isdigit b = true := by
            intro hb
            rw [List.takeWhile_cons_of_pos hb] at hrest
            exact absurd hrest (by simp)
          have hnot : ¬ (48 ≤ b ∧ b ≤ 57) := by
            rintro ⟨hlow, hhigh⟩
            exact hb (by simp [isdigit, hlow, hhigh])
          rw [digits, if_neg hnot]
  | cons c cs ih =>
      obtain ⟨hdigit, hnat⟩ := isdigit_ofNat (hcs c List.mem_cons_self)
      have hrange : 48 ≤ UInt8.ofNat c.toNat ∧ UInt8.ofNat c.toNat ≤ 57 := by simpa [isdigit] using hdigit
      rw [List.map_cons, List.cons_append, digits, if_pos hrange,
        ih (fun d hd => hcs d (List.mem_cons_of_mem c hd)), hnat, Nat.ofDigitChars_cons]
      rfl

/-- The digits of a decimal, whatever comes after it. -/
theorem digits_decimal (n : Nat) {rest : Bytes} (hrest : rest.takeWhile isdigit = []) :
    digits 0 (decimal n ++ rest) = n := by
  rw [decimal_eq, digits_map (fun c hc => isDigit_of_mem hc) hrest, Nat.ofDigitChars_toDigits (by decide) (by decide)]

/-- A digit is neither white space nor a sign. -/
theorem not_isspace_of_isdigit {c : UInt8} (h : isdigit c = true) : isspace c = false ∧ c ≠ 45 ∧ c ≠ 43 := by
  have hrange : 48 ≤ c ∧ c ≤ 57 := by simpa [isdigit] using h
  have hlow : 48 ≤ c.toNat := UInt8.le_iff_toNat_le.mp hrange.1
  refine ⟨?_, ?_, ?_⟩
  · have hne : c ≠ 32 := by
      rintro rfl
      exact absurd hlow (by decide)
    have hhigh : ¬ c ≤ 13 := by
      intro hle
      have hnat : c.toNat ≤ 13 := UInt8.le_iff_toNat_le.mp hle
      omega
    simp [isspace, hne, hhigh]
  · rintro rfl
    exact absurd hlow (by decide)
  · rintro rfl
    exact absurd hlow (by decide)

theorem scanNumber_dropWhile (file : Bytes) : scanNumber (file.dropWhile isspace) = scanNumber file := by
  unfold scanNumber
  rw [List.dropWhile_idempotent]

/-- **A number is read as it was written.** -/
theorem scanNumber_decimal {n : Nat} (h : n < 2 ^ 31) (rest : Bytes) :
    scanNumber (decimal n ++ 10 :: rest) = (some (n : Int), rest.dropWhile isspace) := by
  have hdigits : ∀ b ∈ decimal n, isdigit b = true := fun b hb => digit_of_mem_decimal hb
  obtain ⟨c, cs, hcs⟩ := List.exists_cons_of_ne_nil (decimal_ne_nil n)
  obtain ⟨hspace, hminus, hplus⟩ := not_isspace_of_isdigit (hdigits c (by rw [hcs]; exact List.mem_cons_self))
  have hstart : (decimal n ++ 10 :: rest).dropWhile isspace = decimal n ++ 10 :: rest := by
    rw [hcs, List.cons_append]
    exact List.dropWhile_cons_of_neg (by simp [hspace])
  -- the first character is a digit: no space to skip and no sign
  have hsign : sign (decimal n ++ 10 :: rest) = (1, decimal n ++ 10 :: rest) := by
    rw [hcs, List.cons_append]
    unfold sign
    split
    · rename_i heq
      exact absurd (List.cons.inj heq).1 hminus
    · rename_i heq
      exact absurd (List.cons.inj heq).1 hplus
    · rfl
  have htake : (decimal n ++ 10 :: rest).takeWhile isdigit = decimal n := by
    rw [List.takeWhile_append_of_pos hdigits, List.takeWhile_cons_of_neg (by decide), List.append_nil]
  have hdrop : (decimal n ++ 10 :: rest).dropWhile isdigit = 10 :: rest := by
    rw [List.dropWhile_append_of_pos hdigits, List.dropWhile_cons_of_neg (by decide)]
  have hvalue : digits 0 (decimal n ++ 10 :: rest) = n := digits_decimal n (List.takeWhile_cons_of_neg (by decide))
  unfold scanNumber
  rw [hstart, hsign]
  dsimp only
  rw [htake, if_neg (decimal_ne_nil n), hdrop, hvalue, one_mul, List.dropWhile_cons_of_pos (by decide),
    int32_of_range (by omega) (by omega)]

end Numbers

/-! ## `info.txt` -/

section Info

variable {u p h rest : Bytes} {l : Login}

/-- A text that fits its buffer is found there as it was written. -/
theorem sprintf_of_fits (behind : Bytes → Bytes) {size : Nat} {text : Bytes} (h0 : 0 ∉ text)
    (hfits : text.length + 1 ≤ size) : sprintf behind size text = text := by
  have hle : (text ++ [0]).length ≤ size := by
    rw [List.length_append, List.length_singleton]
    exact hfits
  unfold sprintf
  dsimp only
  rw [if_pos hle, List.take_of_length_le hle, List.append_nil]
  exact cstr_append_zero h0 []

theorem zero_notMem_infoText (l : Login) : 0 ∉ infoText l := by
  unfold infoText
  simp [zero_notMem_cstr]

theorem length_infoText (l : Login) :
    (infoText l).length = strlen l.username + strlen l.password + strlen l.hash + 2 := by
  unfold infoText strlen
  simp
  omega

/-- What `fwrite` finds in `tinfo`: the text, and what has become of the terminator behind the buffer. -/
theorem saveInfo_eq (behind : Bytes → Bytes) (l : Login) : saveInfo behind l = infoText l ++ cstr (behind [0]) := by
  unfold saveInfo sprintf
  dsimp only
  rw [← length_infoText, List.take_left, List.drop_left, if_neg (by simp), cstr_append (zero_notMem_infoText l)]

/-- The fields after a prompt that was answered. -/
theorem infoText_prompt (hu : IsLine u) (hp : IsLine p) (hh : IsLine h) (l : Login) :
    infoText (prompt u p h l) = u ++ 10 :: (p ++ 10 :: h) := by
  have hstrlen : ∀ {s : Bytes}, IsLine s → strlen s > 1 := by
    intro s hs
    unfold strlen
    rw [cstr_eq hs.noNul]
    exact hs.long
  have hcstr : ∀ {s : Bytes}, IsLine s → cstr (cstr s) = s := by
    intro s hs
    rw [cstr_eq hs.noNul, cstr_eq hs.noNul]
  unfold infoText prompt
  dsimp only
  rw [if_pos (hstrlen hu), if_pos (hstrlen hp), if_pos (hstrlen hh), hcstr hu, hcstr hp, hcstr hh]
  simp

/-- What has been read from `info.txt`. -/
def Login.info (l : Login) : Bytes × Bytes × Bytes := (l.username, l.password, l.hash)

/-- The three words of `info.txt`, where none of them is missing. -/
theorem info_readInfo (file : Bytes) (l : Login) :
    (readInfo (some file) l).info =
      let username := scanWord file
      let password := scanWord username.2
      let hash := scanWord password.2
      if strlen (username.1.getD l.username) < 1 then (username.1.getD l.username, l.password, l.hash)
      else if strlen (password.1.getD l.password) < 1 then
        (username.1.getD l.username, password.1.getD l.password, l.hash)
      else (username.1.getD l.username, password.1.getD l.password, hash.1.getD l.hash) := by
  unfold readInfo
  dsimp only
  split_ifs <;> rfl

theorem harmless_iff {found : Bytes} :
    EndsWord found ↔ (cstr found).takeWhile (fun c => !isspace c) = [] := by
  unfold EndsWord
  cases cstr found with
  | nil => simp
  | cons c rest =>
      cases hc : isspace c with
      | true => simp [hc]
      | false => simp [hc]

theorem IsLine.ne_nil {s : Bytes} (hs : IsLine s) : s ≠ [] := by
  rintro rfl
  exact absurd hs.long (by decide)

theorem IsLine.strlen_pos {s : Bytes} (hs : IsLine s) : ¬ strlen s < 1 := by
  have hlong := hs.long
  unfold strlen
  rw [cstr_eq hs.noNul]
  omega

/-- Three clean fields are read, the last one with what follows it. -/
theorem info_clean (hu : IsLine u) (hp : IsLine p) (hh : IsLine h) (cu : Clean u) (cp : Clean p) (ch : Clean h)
    (g : Bytes) (l : Login) : (readInfo (some (u ++ 10 :: (p ++ 10 :: (h ++ g)))) l).info =
      (u, p, h ++ g.takeWhile fun c => !isspace c) := by
  have hword : scanWord (u ++ 10 :: (p ++ 10 :: (h ++ g))) = (some u, (p ++ 10 :: (h ++ g)).dropWhile isspace) :=
    scanWord_line cu hu.ne_nil _
  have hword' : scanWord ((p ++ 10 :: (h ++ g)).dropWhile isspace) = (some p, (h ++ g).dropWhile isspace) := by
    rw [scanWord_dropWhile, scanWord_line cp hp.ne_nil]
  have hword'' : (scanWord ((h ++ g).dropWhile isspace)).1 = some (h ++ g.takeWhile fun c => !isspace c) := by
    rw [scanWord_dropWhile, scanWord_append ch hh.ne_nil]
  rw [info_readInfo]
  dsimp only
  rw [hword]
  dsimp only
  rw [hword']
  dsimp only
  rw [hword'', Option.getD_some, Option.getD_some, Option.getD_some, if_neg hu.strlen_pos, if_neg hp.strlen_pos]

/-- **What was saved to `info.txt` is read again** just if no field has white space in it, and the terminator
    behind `tinfo` has done no harm. -/
theorem info_iff (behind : Bytes → Bytes) (l : Login) (hu : IsLine u) (hp : IsLine p) (hh : IsLine h) {l₀ : Login}
    (hl₀ : l₀.info = ([], [], [])) :
    (readInfo (some (saveInfo behind (prompt u p h l))) l₀).info = (u, p, h) ↔
      Clean u ∧ Clean p ∧ Clean h ∧ EndsWord (behind [0]) := by
  have hfile : saveInfo behind (prompt u p h l) = u ++ 10 :: (p ++ 10 :: (h ++ cstr (behind [0]))) := by
    rw [saveInfo_eq, infoText_prompt hu hp hh]
    simp
  rw [hfile]
  -- what has been read back is a word without a separator, and a line is never empty
  have hclean : (readInfo (some (u ++ 10 :: (p ++ 10 :: (h ++ cstr (behind [0]))))) l₀).info = (u, p, h) →
      Clean u ∧ Clean p ∧ Clean h := by
    intro heq
    obtain ⟨hu₀, hp₀, hh₀⟩ : l₀.username = [] ∧ l₀.password = [] ∧ l₀.hash = [] := by
      simpa [Login.info] using hl₀
    rw [info_readInfo, hu₀, hp₀, hh₀] at heq
    dsimp only at heq
    split_ifs at heq with hshort hshort'
    · obtain ⟨h1, -⟩ := Prod.mk.inj heq
      rw [h1] at hshort
      exact absurd hshort hu.strlen_pos
    · obtain ⟨-, h2⟩ := Prod.mk.inj heq
      rw [(Prod.mk.inj h2).1] at hshort'
      exact absurd hshort' hp.strlen_pos
    · obtain ⟨h1, h2⟩ := Prod.mk.inj heq
      obtain ⟨h2, h3⟩ := Prod.mk.inj h2
      exact ⟨(read_cases h1 hu.ne_nil).1, (read_cases h2 hp.ne_nil).1, (read_cases h3 hh.ne_nil).1⟩
  rw [harmless_iff]
  constructor
  · intro heq
    obtain ⟨cu, cp, ch⟩ := hclean heq
    rw [info_clean hu hp hh cu cp ch] at heq
    have hlast : h ++ (cstr (behind [0])).takeWhile (fun c => !isspace c) = h :=
      (Prod.mk.inj (Prod.mk.inj heq).2).2
    exact ⟨cu, cp, ch, by simpa using hlast⟩
  · rintro ⟨cu, cp, ch, hnil⟩
    rw [info_clean hu hp hh cu cp ch, hnil, List.append_nil]

end Info

/-! ## `direct.txt` -/

section Direct

variable {l : Login}

/-- What has been read from `direct.txt`. -/
def Login.direct (l : Login) : Bytes × Int × Bytes × Bytes := (l.ipa, l.port, l.username, l.mppass)

/-- The four fields as C strings. -/
def Login.fields (l : Login) : Bytes × Int × Bytes × Bytes := (cstr l.ipa, l.port, cstr l.username, cstr l.mppass)

theorem direct_readDirect (file : Bytes) (l : Login) :
    (readDirect file l).direct =
      let ipa := scanWord file
      let port := scanNumber ipa.2
      let username := scanWord port.2
      let mppass := scanWord username.2
      if strlen (ipa.1.getD l.ipa) < 1 then (ipa.1.getD l.ipa, l.port, l.username, l.mppass)
      else if port.1.getD l.port = 0 then (ipa.1.getD l.ipa, port.1.getD l.port, l.username, l.mppass)
      else if strlen (username.1.getD l.username) < 1 then
        (ipa.1.getD l.ipa, port.1.getD l.port, username.1.getD l.username, l.mppass)
      else (ipa.1.getD l.ipa, port.1.getD l.port, username.1.getD l.username, mppass.1.getD l.mppass) := by
  unfold readDirect
  dsimp only
  split_ifs <;> rfl

theorem zero_notMem_directText (h : 0 ≤ l.port) : 0 ∉ directText l := by
  have hport : 0 ∉ decimal l.port := by
    obtain ⟨n, hn⟩ := Int.eq_ofNat_of_zero_le h
    rw [hn]
    intro h0
    exact absurd (digit_of_mem_decimal h0) (by decide)
  unfold directText
  simp [zero_notMem_cstr, hport]

/-- Where nothing disturbs the stack, the text is found as it was written. -/
theorem writeDirect_intact (h : 0 ≤ l.port) : writeDirect id l = directText l := by
  have hmemory : (directText l ++ [0]).take 70 ++
      (if (directText l ++ [0]).length ≤ 70 then [] else id ((directText l ++ [0]).drop 70)) =
        directText l ++ [0] := by
    split_ifs with hfits
    · rw [List.take_of_length_le hfits, List.append_nil]
    · exact List.take_append_drop 70 _
  unfold writeDirect sprintf
  dsimp only
  rw [hmemory, cstr_append (zero_notMem_directText h)]
  exact List.append_nil _

/-- Where the text fits, the stack does not matter. -/
theorem writeDirect_fits (h : 0 ≤ l.port) (hfits : (directText l).length ≤ 69) (behind : Bytes → Bytes) :
    writeDirect behind l = directText l :=
  sprintf_of_fits behind (zero_notMem_directText h) (by omega)

/-- Something else on the stack: the terminator has become another character. -/
def lastReplaced (tail : Bytes) : Bytes := tail.dropLast ++ [120, 0]

/-- Where the text does not fit, it may go on. -/
theorem writeDirect_lastReplaced (h : 0 ≤ l.port) (hlong : 70 ≤ (directText l).length) :
    writeDirect lastReplaced l = directText l ++ [120] := by
  have hmemory : (directText l ++ [0]).take 70 ++ lastReplaced ((directText l ++ [0]).drop 70) =
      directText l ++ [120, 0] := by
    unfold lastReplaced
    rw [List.take_append_of_le_length hlong, List.drop_append_of_le_length hlong, List.dropLast_concat,
      ← List.append_assoc, List.take_append_drop]
  unfold writeDirect sprintf
  dsimp only
  rw [if_neg (by rw [List.length_append, List.length_singleton]; omega), hmemory,
    cstr_append (zero_notMem_directText h)]
  rfl

/-- Clean fields are read, the last one with what follows it. -/
theorem direct_clean {ip user rest : Bytes} {n : Nat} (hip : 0 ∉ ip) (huser : 0 ∉ user) (cip : Clean ip)
    (cuser : Clean user) (nip : ip ≠ []) (nuser : user ≠ []) (hn : n ≠ 0) (hmax : n < 2 ^ 31) (l : Login) :
    (readDirect (ip ++ 10 :: (decimal n ++ 10 :: (user ++ 10 :: rest))) l).direct =
      (ip, (n : Int), user, (scanWord rest).1.getD l.mppass) := by
  have hlong : ∀ {s : Bytes}, 0 ∉ s → s ≠ [] → ¬ strlen s < 1 := by
    intro s hs hne
    unfold strlen
    rw [cstr_eq hs, Nat.lt_one_iff, List.length_eq_zero_iff]
    exact hne
  -- each word ends at its line break, and so does the number
  have hword := scanWord_line cip nip (decimal n ++ 10 :: (user ++ 10 :: rest))
  have hnumber : scanNumber ((decimal n ++ 10 :: (user ++ 10 :: rest)).dropWhile isspace) =
      (some (n : Int), (user ++ 10 :: rest).dropWhile isspace) := by
    rw [scanNumber_dropWhile, scanNumber_decimal hmax]
  have hword' : scanWord ((user ++ 10 :: rest).dropWhile isspace) = (some user, rest.dropWhile isspace) := by
    rw [scanWord_dropWhile, scanWord_line cuser nuser]
  rw [direct_readDirect]
  dsimp only
  rw [hword]
  dsimp only
  rw [hnumber]
  dsimp only
  rw [hword', scanWord_dropWhile, Option.getD_some, Option.getD_some, Option.getD_some, if_neg (hlong hip nip),
    if_neg (by omega), if_neg (hlong huser nuser)]

/-- Fields that were read are words; only the last one may be missing. The name `v` was there before. -/
theorem read_direct {file ip user mppass v : Bytes} {n : Int}
    (h : (readDirect file { username := v, loginMethod := 2 }).direct = (ip, n, user, mppass)) (hv : user ≠ v)
    (hnul : 0 ∉ user) : (Clean ip ∧ ip ≠ []) ∧ (Clean user ∧ user ≠ []) ∧ Clean mppass := by
  rw [direct_readDirect] at h
  dsimp only at h
  -- wherever the reading stopped too early, the name is the one from before
  split_ifs at h with hip hport huser
  · exact absurd (congrArg (fun q => q.2.2.1) h).symm hv
  · exact absurd (congrArg (fun q => q.2.2.1) h).symm hv
  · have hname := congrArg (fun q => q.2.2.1) h
    dsimp only at hname
    obtain ⟨-, hne⟩ := read_cases hname hv
    rw [hname, strlen, cstr_eq hnul, Nat.lt_one_iff, List.length_eq_zero_iff] at huser
    exact absurd huser hne
  · obtain ⟨h1, h2⟩ := Prod.mk.inj h
    obtain ⟨-, h3⟩ := Prod.mk.inj h2
    obtain ⟨h3, h4⟩ := Prod.mk.inj h3
    have nip : ip ≠ [] := by
      rintro rfl
      rw [h1] at hip
      exact hip (by decide)
    refine ⟨read_cases h1 nip, read_cases h3 hv, ?_⟩
    by_cases hnil : mppass = []
    · rw [hnil]
      exact fun c hc => absurd hc List.not_mem_nil
    · exact (read_cases h4 hnil).1

/-- **What was written to `direct.txt` is read again**, whatever the stack does and whatever `info.txt` said, just
    if there are an address and a user name, no field has white space in it, and the text fits in `direct`. -/
theorem direct_iff (hport : 0 < l.port) (hmax : l.port < 2 ^ 31) :
    (∀ (behind : Bytes → Bytes) (username : Bytes),
        (readDirect (writeDirect behind l) { username := username, loginMethod := 2 }).direct = l.fields) ↔
      cstr l.ipa ≠ [] ∧ cstr l.username ≠ [] ∧ Clean (cstr l.ipa) ∧ Clean (cstr l.username) ∧
        Clean (cstr l.mppass) ∧ (directText l).length ≤ 69 := by
  obtain ⟨n, hn⟩ := Int.eq_ofNat_of_zero_le hport.le
  have htext : ∀ rest, directText l ++ rest =
      cstr l.ipa ++ 10 :: (decimal n ++ 10 :: (cstr l.username ++ 10 :: (cstr l.mppass ++ rest))) := by
    intro rest
    unfold directText
    rw [hn]
    simp
  have hread : ∀ {rest : Bytes} {l₀ : Login}, Clean (cstr l.ipa) → Clean (cstr l.username) → cstr l.ipa ≠ [] →
      cstr l.username ≠ [] → (readDirect (directText l ++ rest) l₀).direct =
        (cstr l.ipa, l.port, cstr l.username, (scanWord (cstr l.mppass ++ rest)).1.getD l₀.mppass) := by
    intro rest l₀ cip cuser nip nuser
    rw [htext, hn]
    exact direct_clean (zero_notMem_cstr _) (zero_notMem_cstr _) cip cuser nip nuser (by omega) (by omega) l₀
  constructor
  · intro hall
    -- a name that cannot be taken for the right one, so that one must have been read
    have hintact := hall id (cstr l.username ++ [120])
    rw [writeDirect_intact hport.le] at hintact
    obtain ⟨⟨cip, nip⟩, ⟨cuser, nuser⟩, cmppass⟩ := read_direct hintact (by simp) (zero_notMem_cstr _)
    refine ⟨nip, nuser, cip, cuser, cmppass, ?_⟩
    by_contra hlong
    have hreplaced := hall lastReplaced []
    rw [writeDirect_lastReplaced hport.le (by omega), hread cip cuser nip nuser] at hreplaced
    have clast : Clean (cstr l.mppass ++ [120]) := by
      intro c hc
      rcases List.mem_append.mp hc with hc | hc
      · exact cmppass c hc
      · obtain rfl := List.mem_singleton.mp hc
        decide
    have hlast := congrArg (fun q : Bytes × Int × Bytes × Bytes => q.2.2.2) hreplaced
    have hword := scanWord_append clast (by simp) []
    rw [List.append_nil] at hword
    dsimp only at hlast
    rw [hword] at hlast
    simp [Login.fields] at hlast
  · rintro ⟨nip, nuser, cip, cuser, cmppass, hfits⟩ behind username
    rw [writeDirect_fits hport.le hfits, ← List.append_nil (directText l), hread cip cuser nip nuser,
      List.append_nil]
    unfold Login.fields
    cases hmppass : cstr l.mppass with
    | nil => rfl
    | cons c rest =>
        have hword := scanWord_append (hmppass ▸ cmppass) (List.cons_ne_nil c rest) []
        rw [List.append_nil] at hword
        rw [hword]
        simp

end Direct

/-! ## Both files -/

/-- **Saved connection info**: when what was saved is read at the next start. -/
theorem saved_info_iff (behind : Bytes → Bytes) (l : Login) {u p h : Bytes} (hu : IsLine u) (hp : IsLine p)
    (hh : IsLine h) {l₀ : Login} (hl₀ : l₀.info = ([], [], [])) {d : Login} (hport : 0 < d.port)
    (hmax : d.port < 2 ^ 31) :
    ((readInfo (some (saveInfo behind (prompt u p h l))) l₀).info = (u, p, h) ↔
        Clean u ∧ Clean p ∧ Clean h ∧ EndsWord (behind [0])) ∧
      ((∀ (behind : Bytes → Bytes) (username : Bytes),
          (readDirect (writeDirect behind d) { username := username, loginMethod := 2 }).direct = d.fields) ↔
        cstr d.ipa ≠ [] ∧ cstr d.username ≠ [] ∧ Clean (cstr d.ipa) ∧ Clean (cstr d.username) ∧
          Clean (cstr d.mppass) ∧ (directText d).length ≤ 69) :=
  ⟨info_iff behind l hu hp hh hl₀, direct_iff hport hmax⟩

theorem isLine_username : IsLine (ascii "username") := ⟨by decide, by decide, by decide, by decide⟩

theorem isLine_password : IsLine (ascii "pass word") := ⟨by decide, by decide, by decide, by decide⟩

theorem isLine_hash : IsLine (ascii "hash") := ⟨by decide, by decide, by decide, by decide⟩

/-- A connection on the local host. -/
def localhost : Login where
  ipa := ascii "127.0.0.1"
  port := 25565
  username := ascii "username"
  mppass := ascii "mppass"

/-- A password of two words, and a connection whose text fits. -/
theorem saved_info_iff_localhost :
    ((readInfo (some (saveInfo id (prompt (ascii "username") (ascii "pass word") (ascii "hash") {}))) {}).info =
          (ascii "username", ascii "pass word", ascii "hash") ↔
        Clean (ascii "username") ∧ Clean (ascii "pass word") ∧ Clean (ascii "hash") ∧ EndsWord (id [0])) ∧
      ((∀ (behind : Bytes → Bytes) (username : Bytes),
          (readDirect (writeDirect behind localhost) { username := username, loginMethod := 2 }).direct =
            localhost.fields) ↔
        cstr localhost.ipa ≠ [] ∧ cstr localhost.username ≠ [] ∧ Clean (cstr localhost.ipa) ∧
          Clean (cstr localhost.username) ∧ Clean (cstr localhost.mppass) ∧ (directText localhost).length ≤ 69) :=
  saved_info_iff id {} isLine_username isLine_password isLine_hash rfl (by decide) (by decide)

/-- The second word of the password is taken for the hash, even if the stack is left alone. -/
theorem password_split : ¬ ∀ (l : Login) (u p h : Bytes) (l₀ : Login), IsLine u → IsLine p → IsLine h →
    l₀.info = ([], [], []) → (readInfo (some (saveInfo id (prompt u p h l))) l₀).info = (u, p, h) := by
  intro hall
  have hread := hall {} _ _ _ {} isLine_username isLine_password isLine_hash rfl
  obtain ⟨-, hclean, -⟩ := (info_iff id {} isLine_username isLine_password isLine_hash rfl).mp hread
  exact absurd (hclean 32 (by decide)) (by decide)

end LavaTunnel
