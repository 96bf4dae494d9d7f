import LavaTunnel.Lists
import LavaTunnel.Correctness.Gimps
import LavaTunnel.Correctness.Info

/-!
# `LavaTunnel.Correctness.Lists` — the lists as they are loaded

Both loops read one entry more than the file has newlines. For the gimp texts that is right when the last line ends in
a newline: the entry too many is never picked, because the pick leaves the last one out. For the names it is right
when the last line does not, and otherwise there is an empty name in the list.
-/

namespace LavaTunnel

open Wire

/-! ## Words -/

/-- The words of a text. -/
def words (file : Bytes) : List Bytes := (file.splitOnP isspace).filter (· ≠ [])

section Words

variable {w file rest : Bytes}

/-- **Words split at white space.** -/
theorem words_append_space {c : UInt8} (hc : isspace c = true) (file rest : Bytes) :
    words (file ++ c :: rest) = words file ++ words rest := by
  unfold words
  rw [List.splitOnP_append_cons file rest hc, List.filter_append]

theorem words_nil : words [] = [] := rfl

theorem words_cons_space {c : UInt8} (hc : isspace c = true) (rest : Bytes) : words (c :: rest) = words rest :=
  words_append_space hc [] rest

theorem words_clean (hw : Clean w) (hne : w ≠ []) : words w = [w] := by
  unfold words
  rw [List.splitOnP_eq_singleton hw]
  simp [hne]

/-- A word is not empty, and its characters are in the text. -/
theorem mem_words (h : w ∈ words file) : w ≠ [] ∧ ∀ c ∈ w, c ∈ file := by
  have hpiece : ∀ (file w : Bytes), w ∈ file.splitOnP isspace → ∀ c ∈ w, c ∈ file := by
    intro file
    induction file with
    | nil =>
        intro w hw c hc
        rw [List.splitOnP_nil, List.mem_singleton] at hw
        rwa [hw] at hc
    | cons d file ih =>
        intro w hw c hc
        rw [List.splitOnP_cons_eq_if_modifyHead] at hw
        split_ifs at hw
        · rcases List.mem_cons.mp hw with rfl | hw
          · exact absurd hc List.not_mem_nil
          · exact List.mem_cons_of_mem d (ih w hw c hc)
        · obtain ⟨p, ps, hps⟩ := List.exists_cons_of_ne_nil (List.splitOnP_ne_nil isspace file)
          rw [hps, List.modifyHead_cons] at hw
          rcases List.mem_cons.mp hw with rfl | hw
          · rcases List.mem_cons.mp hc with rfl | hc
            · exact List.mem_cons_self
            · exact List.mem_cons_of_mem d (ih p (hps ▸ List.mem_cons_self) c hc)
          · exact List.mem_cons_of_mem d (ih w (hps ▸ List.mem_cons_of_mem p hw) c hc)
  obtain ⟨hw, hne⟩ := List.mem_filter.mp h
  exact ⟨by simpa using hne, hpiece file w hw⟩

theorem words_dropWhile (file : Bytes) : words (file.dropWhile isspace) = words file := by
  induction file with
  | nil => rfl
  | cons c file ih =>
      by_cases hc : isspace c = true
      · rw [List.dropWhile_cons_of_pos hc, ih, words_cons_space hc]
      · rw [List.dropWhile_cons_of_neg hc]

/-- **`fscanf` takes the first word**, and leaves the others. -/
theorem scanWord_words (file : Bytes) :
    (scanWord file).1 = (words file).head? ∧ words (scanWord file).2 = (words file).tail := by
  have hspan := List.takeWhile_append_dropWhile (p := fun c => !isspace c) (l := file.dropWhile isspace)
  rw [← words_dropWhile file]
  unfold scanWord
  dsimp only
  cases hfile : file.dropWhile isspace with
  | nil => exact ⟨rfl, rfl⟩
  | cons c rest =>
      have hc : isspace c = false := by
        have hhead := List.head_dropWhile_not (p := isspace) (l := file) (by simp [hfile])
        simpa [hfile] using hhead
      rw [hfile] at hspan
      have hclean : Clean ((c :: rest).takeWhile fun c => !isspace c) :=
        fun d hd => by simpa using List.mem_takeWhile_imp hd
      have hne : ((c :: rest).takeWhile fun c => !isspace c) ≠ [] := by
        rw [List.takeWhile_cons_of_pos (by simp [hc])]
        exact List.cons_ne_nil _ _
      -- behind the word there is white space, or nothing
      have hwords : words (c :: rest) = ((c :: rest).takeWhile fun c => !isspace c) ::
          words ((c :: rest).dropWhile fun c => !isspace c) := by
        have hdrop : ∀ d, ((c :: rest).dropWhile fun c => !isspace c).head? = some d → isspace d = true := by
          intro d hd
          have hhead := List.head?_dropWhile_not (fun c => !isspace c) (c :: rest)
          rw [hd] at hhead
          simpa using hhead
        conv_lhs => rw [← hspan]
        cases hrest : (c :: rest).dropWhile fun c => !isspace c with
        | nil => rw [List.append_nil, words_clean hclean hne, words_nil]
        | cons d rest' =>
            have hd : isspace d = true := hdrop d (by rw [hrest]; rfl)
            rw [words_append_space hd, words_clean hclean hne, words_cons_space hd]
            rfl
      rw [if_neg (List.cons_ne_nil c rest), hwords]
      exact ⟨rfl, words_dropWhile _⟩

end Words

/-! ## The names -/

/-- Each entry that is read gets its word, as long as there is one. -/
theorem foldl_loadIgnore (n first : Nat) (m : Nat → Bytes) (file : Bytes) (i : Nat) :
    ((List.range' first n).foldl loadIgnore (m, file)).1 i =
      if first ≤ i ∧ i < first + n then ((words file)[i - first]?).getD (m i) else m i := by
  induction n generalizing first m file with
  | zero =>
      rw [if_neg (by omega)]
      rfl
  | succ n ih =>
      obtain ⟨hword, hrest⟩ := scanWord_words file
      rw [List.range'_succ, List.foldl_cons]
      show ((List.range' (first + 1) n).foldl loadIgnore (_, (scanWord file).2)).1 i = _
      rw [ih, hrest, hword]
      cases words file with
      | nil => simp only [List.head?_nil, List.tail_nil, List.getElem?_nil, Option.getD_none, ite_self]
      | cons w ws =>
          simp only [List.head?_cons, List.tail_cons]
          by_cases heq : i = first
          · subst heq
            rw [if_neg (by omega), if_pos (by omega), Function.update_self, Nat.sub_self]
            rfl
          · rw [Function.update_of_ne heq]
            by_cases hlt : first < i
            · rw [show i - first = i - (first + 1) + 1 by omega, List.getElem?_cons_succ]
              exact if_congr (by omega) rfl rfl
            · rw [if_neg (by omega), if_neg (by omega)]

/-- After start-up every entry lies in the table, and the entries are the names in the file. -/
structure IgnoresLoaded (file : Bytes) (t : Tunnel) : Prop where
  inside : ∀ i : Nat, 1 ≤ i → (i : Int) ≤ (loadIgnores (some file) t).ignoreN → i < 64
  names : ∀ name, (∃ i : Nat, 1 ≤ i ∧ (i : Int) ≤ (loadIgnores (some file) t).ignoreN ∧
    cstr ((loadIgnores (some file) t).ignores i) = name) ↔ name ∈ words file

/-- A file of names: each one has room in its row. -/
structure NamesFile (file : Bytes) : Prop where
  noNul : 0 ∉ file
  short : ∀ w ∈ words file, w.length ≤ 63

/-- The names that are read are those of the file: there is one for each newline and one more, they have room in the
    table, and none comes after them that is not among them. -/
structure NameForEach (file : Bytes) : Prop where
  enough : file.count 10 < (words file).length
  room : file.count 10 < 63
  all : ∀ w ∈ words file, w ∈ (words file).take (file.count 10 + 1)

/-- **The names are loaded** just if there is one for each entry. -/
theorem ignoresLoaded_iff {file : Bytes} {t : Tunnel} (hfile : NamesFile file)
    (hzero : ∀ i, cstr (t.ignores i) = []) :
    IgnoresLoaded file t ↔ NameForEach file := by
  have hentry : ∀ i, 1 ≤ i → i ≤ file.count 10 + 1 →
      cstr ((loadIgnores (some file) t).ignores i) = ((words file)[i - 1]?).getD [] := by
    intro i h1 hi
    show cstr (((List.range' 1 (file.count 10 + 1)).foldl loadIgnore (t.ignores, file)).1 i) = _
    rw [foldl_loadIgnore, if_pos (by omega)]
    cases hword : (words file)[i - 1]? with
    | none => exact hzero i
    | some w =>
        have hmem := mem_words (List.mem_of_getElem? hword)
        exact cstr_eq fun h0 => hfile.noNul (hmem.2 0 h0)
  have hcount : (loadIgnores (some file) t).ignoreN = (file.count 10 + 1 : Nat) := rfl
  have htake : ∀ k, k < file.count 10 + 1 → ((words file).take (file.count 10 + 1))[k]? = (words file)[k]? :=
    fun k hk => List.getElem?_take_of_lt hk
  constructor
  · rintro ⟨hinside, hnames⟩
    rw [hcount] at hinside hnames
    have henough : file.count 10 < (words file).length := by
      by_contra hfew
      -- the last entry has no name left
      have hempty : [] ∈ words file := (hnames []).mp ⟨file.count 10 + 1, by omega, by omega, by
        rw [hentry _ (by omega) (le_refl _), Nat.add_sub_cancel, List.getElem?_eq_none (by omega)]
        rfl⟩
      exact (mem_words hempty).1 rfl
    refine ⟨henough, ?_, fun w hw => ?_⟩
    · have hlast := hinside (file.count 10 + 1) (by omega) (by omega)
      omega
    · obtain ⟨i, h1, hi, hname⟩ := (hnames w).mpr hw
      rw [hentry i h1 (by omega), List.getElem?_eq_getElem (by omega)] at hname
      refine List.mem_of_getElem? (i := i - 1) ?_
      rw [htake _ (by omega), List.getElem?_eq_getElem (by omega)]
      exact congrArg some hname
  · rintro ⟨henough, hroom, hall⟩
    refine ⟨?_, fun name => ⟨?_, fun hname => ?_⟩⟩
    · rw [hcount]
      intro i _ hi
      omega
    · rw [hcount]
      rintro ⟨i, h1, hi, rfl⟩
      rw [hentry i h1 (by omega), List.getElem?_eq_getElem (by omega)]
      exact List.getElem_mem _
    · obtain ⟨k, hk⟩ := List.mem_iff_getElem?.mp (hall name hname)
      have hlt : k < file.count 10 + 1 := by
        obtain ⟨hlen, -⟩ := List.getElem?_eq_some_iff.mp hk
        rw [List.length_take] at hlen
        omega
      rw [htake k hlt] at hk
      refine ⟨k + 1, by omega, ?_, ?_⟩
      · rw [hcount]
        omega
      · rw [hentry _ (by omega) (by omega), Nat.add_sub_cancel, hk]
        rfl

/-! ## The texts -/

/-- Lines that have room in a row, with their newline. -/
structure GimpLines (lines : List Bytes) : Prop where
  ne_nil : lines ≠ []
  count : lines.length ≤ 6023
  length : ∀ line ∈ lines, 1 ≤ line.length ∧ line.length ≤ 254
  noNul : ∀ line ∈ lines, 0 ∉ line
  noNewline : ∀ line ∈ lines, 10 ∉ line

/-- The file of the lines, with or without a newline behind the last one. -/
def gimpFile (lines : List Bytes) (final : Bool) : Bytes :=
  if final then lines.flatMap (fun line => line ++ [10]) else (lines.flatMap fun line => line ++ [10]).dropLast

/-- After start-up the entries that can be picked are the lines, and every pick is one of them. -/
structure GimpsPicked (lines : List Bytes) (file : Bytes) (t : Tunnel) : Prop where
  entries : (List.range' 1 ((loadGimps (some file) t).gimpN - 1).toNat).map
    (fun i => cstr (gimpRow (loadGimps (some file) t).gimp i)) = lines
  divides : (loadGimps (some file) t).gimpN - 1 ≠ 0
  picks : ∀ r, cstr (Server.gimpText (loadGimps (some file) t) (256 * gimpPick r (loadGimps (some file) t)) 256)
      ∈ lines

/-- A row begins with a string. -/
def RowIs (m : Nat → UInt8) (i : Nat) (s : Bytes) : Prop := ∀ j ≤ s.length, m (256 * i + j) = (s ++ [0]).getD j 0

section Rows

variable {m m' : Nat → UInt8} {i : Nat} {s : Bytes}

theorem cstr_gimpRow (h : RowIs m i s) (hlen : s.length ≤ 255) (hnul : 0 ∉ s) : cstr (gimpRow m i) = s := by
  have hrow : (gimpRow m i).take (s.length + 1) = s ++ [0] := by
    refine List.ext_getElem? fun j => ?_
    by_cases hj : j ≤ s.length
    · have hlt : j < (s ++ [0]).length := by rw [List.length_append, List.length_singleton]; omega
      rw [List.getElem?_take_of_lt (by omega), List.getElem?_eq_getElem hlt]
      unfold gimpRow
      rw [List.getElem?_map, List.getElem?_range (by omega), Option.map_some, h j hj,
        List.getD_eq_getElem?_getD, List.getElem?_eq_getElem hlt]
      rfl
    · rw [List.getElem?_eq_none (by rw [List.length_take]; omega),
        List.getElem?_eq_none (by rw [List.length_append, List.length_singleton]; omega)]
  rw [← List.take_append_drop (s.length + 1) (gimpRow m i), hrow, List.append_assoc]
  exact cstr_append_zero hnul _

/-- Only the bytes of the string matter. -/
theorem RowIs.congr (h : RowIs m i s) (hm : ∀ j ≤ s.length, m' (256 * i + j) = m (256 * i + j)) : RowIs m' i s :=
  fun j hj => (hm j hj).trans (h j hj)

theorem store_of_not {start : Nat} {bs : Bytes} {k : Nat} (h : k < start ∨ start + bs.length ≤ k) :
    store m start bs k = m k := if_neg (by omega)

theorem store_single (m : Nat → UInt8) (start : Nat) (b : UInt8) : store m start [b] start = b := by
  unfold store
  rw [if_pos ⟨le_refl _, by rw [List.length_singleton]; omega⟩, Nat.sub_self]
  rfl

theorem rowIs_store (m : Nat → UInt8) (i : Nat) (s : Bytes) : RowIs (store m (256 * i) (s ++ [0])) i s := by
  intro j hj
  unfold store
  rw [if_pos ⟨Nat.le_add_right _ _, by rw [List.length_append, List.length_singleton]; omega⟩,
    Nat.add_sub_cancel_left]

/-- A line is read with its newline. -/
theorem fgets_line {line : Bytes} (hlen : line.length ≤ 254) (hline : 10 ∉ line) (rest : Bytes) :
    fgets 256 (line ++ 10 :: rest) = (some (line ++ [10]), rest) := by
  have hscan : (line ++ 10 :: rest).takeWhile (· ≠ 10) = line := by
    rw [List.takeWhile_append_of_pos (fun c hc => by simpa using fun h10 : c = 10 => hline (h10 ▸ hc)),
      List.takeWhile_cons_of_neg (by decide), List.append_nil]
  have hsplit : line ++ 10 :: rest = (line ++ [10]) ++ rest := by simp
  have hn : min (256 - 1) (line.length + 1) = (line ++ [10]).length := by
    rw [List.length_append, List.length_singleton]
    omega
  unfold fgets
  rw [if_neg (by simp), hscan]
  dsimp only
  rw [hn, hsplit, List.take_left, List.drop_left]

/-- **Loading a line** fills its row, and nothing else. -/
theorem loadGimp_line {line : Bytes} (hlen : line.length ≤ 254) (hnul : 0 ∉ line) (hline : 10 ∉ line)
    (m : Nat → UInt8) (rest : Bytes) (i : Nat) :
    ∃ m', loadGimp (m, line ++ 10 :: rest) i = (m', rest) ∧ RowIs m' i line ∧
      ∀ k, k < 256 * i ∨ 256 * (i + 1) ≤ k → m' k = m k := by
  let m₁ := store m (256 * i) ((line ++ [10]) ++ [0])
  have hlength : (line ++ [10]).length = line.length + 1 := by rw [List.length_append, List.length_singleton]
  have hrow : RowIs m₁ i (line ++ [10]) := rowIs_store m i (line ++ [10])
  have hstr : strlen (gimpRow m₁ i) = line.length + 1 := by
    unfold strlen
    rw [cstr_gimpRow hrow (by omega) (by simp [hnul]), hlength]
  refine ⟨store m₁ (256 * i + line.length) [0], ?_, fun j hj => ?_, fun k hk => ?_⟩
  · unfold loadGimp
    rw [fgets_line hlen hline]
    show (store m₁ (256 * i + strlen (gimpRow m₁ i) - 1) [0], rest) = _
    rw [hstr]
    rfl
  · -- the newline makes way for the terminator
    by_cases hlast : j = line.length
    · subst hlast
      rw [List.getD_eq_getElem?_getD, List.getElem?_append_right (le_refl _), Nat.sub_self]
      exact store_single m₁ _ 0
    · rw [store_of_not (Or.inl (by omega)), hrow j (by omega)]
      simp only [List.getD_eq_getElem?_getD]
      rw [List.append_assoc, List.getElem?_append_left (by omega), List.getElem?_append_left (by omega)]
  · refine (store_of_not (by rw [List.length_singleton]; omega)).trans (store_of_not ?_)
    rw [List.length_append, hlength, List.length_singleton]
    omega

/-- At the end of the file there is nothing to read, but a byte is cleared all the same. -/
theorem loadGimp_end (m : Nat → UInt8) (i : Nat) :
    (loadGimp (m, []) i).2 = [] ∧ ∀ k, k + 1 < 256 * i → (loadGimp (m, []) i).1 k = m k :=
  ⟨rfl, fun _ hk => store_of_not (Or.inl (by omega))⟩

/-- **All lines are loaded**, each into its row. -/
theorem foldl_loadGimp {lines : List Bytes} (hlen : ∀ line ∈ lines, line.length ≤ 254)
    (hnul : ∀ line ∈ lines, 0 ∉ line) (hline : ∀ line ∈ lines, 10 ∉ line) (first : Nat) (m : Nat → UInt8) :
    ∃ m', (List.range' first lines.length).foldl loadGimp (m, lines.flatMap fun line => line ++ [10]) = (m', []) ∧
      (∀ k line, lines[k]? = some line → RowIs m' (first + k) line) ∧ ∀ k < 256 * first, m' k = m k := by
  induction lines generalizing first m with
  | nil => exact ⟨m, rfl, fun k line h => absurd h.symm (Option.some_ne_none line), fun _ _ => rfl⟩
  | cons line lines ih =>
      obtain ⟨m₁, hload, hrow, hkeep⟩ := loadGimp_line (hlen line List.mem_cons_self) (hnul line List.mem_cons_self)
        (hline line List.mem_cons_self) m (lines.flatMap fun line => line ++ [10]) first
      obtain ⟨m', hloads, hrows, hkeeps⟩ := ih (fun l hl => hlen l (List.mem_cons_of_mem line hl))
        (fun l hl => hnul l (List.mem_cons_of_mem line hl)) (fun l hl => hline l (List.mem_cons_of_mem line hl))
        (first + 1) m₁
      refine ⟨m', ?_, fun k l hk => ?_, fun k hk => ?_⟩
      · rw [List.length_cons, List.range'_succ, List.foldl_cons, List.flatMap_cons, List.append_assoc,
          List.singleton_append, hload, hloads]
      · cases k with
        | zero =>
            obtain rfl := Option.some.inj hk
            exact hrow.congr fun j hj => hkeeps _ (by have := hlen line List.mem_cons_self; omega)
        | succ k =>
            rw [show first + (k + 1) = first + 1 + k by omega]
            exact hrows k l hk
      · rw [hkeeps k (by omega), hkeep k (Or.inl hk)]

end Rows

/-! ## The result -/

theorem count_newlines {lines : List Bytes} (hline : ∀ line ∈ lines, 10 ∉ line) :
    (lines.flatMap fun line => line ++ [10]).count 10 = lines.length := by
  induction lines with
  | nil => rfl
  | cons line lines ih =>
      rw [List.flatMap_cons, List.count_append, List.count_append,
        List.count_eq_zero.mpr (hline line List.mem_cons_self),
        ih fun l hl => hline l (List.mem_cons_of_mem line hl), List.length_cons]
      show 0 + 1 + lines.length = _
      omega

/-- The number of texts is one more than there are newlines. -/
theorem gimpN_loadGimps {lines : List Bytes} (h : GimpLines lines) (final : Bool) (t : Tunnel) :
    (loadGimps (some (gimpFile lines final)) t).gimpN = if final then (lines.length : Int) + 1 else lines.length := by
  have hcount := count_newlines h.noNewline
  show (((gimpFile lines final).count 10 + 1 : Nat) : Int) = _
  unfold gimpFile
  cases final with
  | true =>
      rw [if_pos rfl, if_pos rfl, hcount]
      rfl
  | false =>
      -- the newline that is missing is the last one
      obtain ⟨lines', last, rfl⟩ := (List.eq_nil_or_concat' lines).resolve_left h.ne_nil
      rw [if_neg Bool.false_ne_true, if_neg Bool.false_ne_true]
      have hdrop : ((lines' ++ [last]).flatMap fun line => line ++ [10]).dropLast ++ [10] =
          (lines' ++ [last]).flatMap fun line => line ++ [10] := by
        rw [List.flatMap_append, List.flatMap_singleton, ← List.append_assoc, List.dropLast_concat]
      rw [← hdrop, List.count_append] at hcount
      exact congrArg Nat.cast hcount

/-- Every text can be picked, and nothing else, if the last line ends in a newline. -/
theorem gimpsPicked_final {lines : List Bytes} (h : GimpLines lines) (t : Tunnel) :
    GimpsPicked lines (gimpFile lines true) t := by
  obtain ⟨m', hfold, hrows, -⟩ := foldl_loadGimp (fun l hl => (h.length l hl).2) h.noNul h.noNewline 1 t.gimp
  have hN : (loadGimps (some (gimpFile lines true)) t).gimpN = lines.length + 1 := gimpN_loadGimps h true t
  have hgimp : (loadGimps (some (gimpFile lines true)) t).gimp = (loadGimp (m', []) (lines.length + 1)).1 := by
    show ((List.range' 1 ((gimpFile lines true).count 10 + 1)).foldl loadGimp (t.gimp, gimpFile lines true)).1 = _
    rw [show gimpFile lines true = lines.flatMap fun line => line ++ [10] from if_pos rfl,
      count_newlines h.noNewline, List.range'_1_concat, List.foldl_append, hfold, Nat.add_comm 1]
    rfl
  have hentry : ∀ k line, lines[k]? = some line →
      cstr (gimpRow (loadGimps (some (gimpFile lines true)) t).gimp (1 + k)) = line := by
    intro k line hk
    have hmem := List.mem_of_getElem? hk
    obtain ⟨hlt, -⟩ := List.getElem?_eq_some_iff.mp hk
    have hlen := h.length line hmem
    rw [hgimp]
    refine cstr_gimpRow ((hrows k line hk).congr fun j hj => ?_) (by omega) (h.noNul line hmem)
    exact (loadGimp_end m' _).2 _ (by omega)
  have hpos := List.length_pos_iff.mpr h.ne_nil
  refine ⟨?_, by rw [hN]; omega, fun r => ?_⟩
  · rw [hN]
    refine List.ext_getElem? fun k => ?_
    rw [List.getElem?_map]
    by_cases hk : k < lines.length
    · rw [List.getElem?_range' (by omega), Option.map_some, List.getElem?_eq_getElem hk, Nat.one_mul]
      exact congrArg some (hentry k _ (List.getElem?_eq_getElem hk))
    · rw [List.getElem?_eq_none (by rw [List.length_range']; omega), List.getElem?_eq_none (by omega)]
      rfl
  · have hpick : gimpPick r (loadGimps (some (gimpFile lines true)) t) = 1 + r % lines.length := by
      unfold gimpPick
      rw [hN, add_sub_cancel_right, ← Int.ofNat_tmod]
      omega
    have hlt : r % lines.length < lines.length := Nat.mod_lt r hpos
    show cstr (gimpRow (loadGimps (some (gimpFile lines true)) t).gimp _) ∈ lines
    rw [hpick, hentry _ _ (List.getElem?_eq_getElem hlt)]
    exact List.getElem_mem hlt

/-- **The lists are loaded as they are to be**: the texts just if the last line ends in a newline, the names just if
    there is one for each entry. The texts stay inside their table unless it is full and the last line ends so. -/
theorem lists_loaded_iff {lines : List Bytes} (h : GimpLines lines) (final : Bool) {file : Bytes}
    (hfile : NamesFile file)
    {t : Tunnel} (hzero : ∀ i, cstr (t.ignores i) = []) :
    (GimpsPicked lines (gimpFile lines final) t ↔ final = true) ∧
      ((∀ i : Nat, 1 ≤ i → (i : Int) ≤ (loadGimps (some (gimpFile lines final)) t).gimpN → i < 6024) ↔
        ¬ (final = true ∧ lines.length = 6023)) ∧
      (IgnoresLoaded file t ↔ NameForEach file) := by
  refine ⟨⟨fun hpicked => ?_, fun hfinal => hfinal ▸ gimpsPicked_final h t⟩, ?_, ignoresLoaded_iff hfile hzero⟩
  · cases final with
    | true => rfl
    | false =>
        -- the last line cannot be picked
        have hlength := congrArg List.length hpicked.entries
        rw [List.length_map, List.length_range', gimpN_loadGimps h false t, if_neg Bool.false_ne_true] at hlength
        have hpos := List.length_pos_iff.mpr h.ne_nil
        omega
  · have hcount := h.count
    rw [gimpN_loadGimps h final t]
    constructor
    · rintro hinside ⟨rfl, hfull⟩
      have hlast := hinside 6024 (by omega) (by rw [if_pos rfl]; omega)
      omega
    · intro hroom i h1 hi
      cases final with
      | true =>
          rw [if_pos rfl] at hi
          have hne : lines.length ≠ 6023 := fun hfull => hroom ⟨rfl, hfull⟩
          omega
      | false =>
          rw [if_neg Bool.false_ne_true] at hi
          omega

/-- The only line of a file. -/
theorem gimpLines_hello : GimpLines [ascii "hello"] where
  ne_nil := List.cons_ne_nil _ _
  count := by decide
  length := by decide
  noNul := by decide
  noNewline := by decide

theorem namesFile_bob : NamesFile (ascii "bob") := ⟨by decide, by decide⟩

/-- Three lines, which are picked from. -/
theorem gimpLines_three : GimpLines [ascii "hello", ascii "i like lava", ascii "mine"] where
  ne_nil := List.cons_ne_nil _ _
  count := by decide
  length := by decide
  noNul := by decide
  noNewline := by decide

/-- Two names, the second one without a newline. -/
theorem namesFile_two : NamesFile (ascii "bob\nalice") := ⟨by decide, by decide⟩

/-- The three texts and the two names. -/
theorem lists_loaded_two :
    GimpsPicked [ascii "hello", ascii "i like lava", ascii "mine"]
        (gimpFile [ascii "hello", ascii "i like lava", ascii "mine"] true) {} ∧
      IgnoresLoaded (ascii "bob\nalice") {} := by
  obtain ⟨hgimps, -, hignores⟩ := lists_loaded_iff gimpLines_three true namesFile_two (t := {}) (fun _ => rfl)
  exact ⟨hgimps.mpr rfl, hignores.mpr ⟨by decide, by decide, by decide⟩⟩

/-- A single text without a newline: there is none to pick from. -/
theorem lists_not_loaded : ¬ ∀ (lines : List Bytes) (final : Bool) (file : Bytes) (t : Tunnel), GimpLines lines →
    NamesFile file → (∀ i, cstr (t.ignores i) = []) →
      GimpsPicked lines (gimpFile lines final) t ∧ IgnoresLoaded file t := by
  intro hall
  have hpicked := (hall _ false _ {} gimpLines_hello namesFile_bob fun _ => rfl).1
  exact Bool.false_ne_true ((lists_loaded_iff gimpLines_hello false namesFile_bob fun _ => rfl).1.mp hpicked)

end LavaTunnel
