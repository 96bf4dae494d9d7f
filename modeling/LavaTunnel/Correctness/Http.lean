import LavaTunnel.Http
import LavaTunnel.Correctness.Text

/-!
# `LavaTunnel.Correctness.Http` — an answer that comes in pieces

`strcat` takes a piece for a string. So `httpbuffer` holds the answer just if a NUL happens to lie behind every piece,
and nothing keeps a long answer inside `httpbuffer`.
-/

namespace LavaTunnel

open Wire

/-- The answer. -/
def body (ps : List Piece) : Bytes := ps.flatMap Piece.data

/-- The memory begins with this string. -/
def Holds (m s : Bytes) : Prop := s ++ [0] <+: m

/-- **The answer arrives**: an answer that fits is in `httpbuffer` afterwards, and one that does not fit is not written
    beyond it. -/
def Accumulates (httpbuffer : Bytes) (ps : List Piece) : Prop :=
  ((body ps).length ≤ 9023 → (transfer httpbuffer ps).1 = true ∧ Holds (transfer httpbuffer ps).2 (body ps)) ∧
    (9023 < (body ps).length → ∀ i ∈ transferWrites httpbuffer ps, i < 9024)

/-- Before `httpbuffer` is full, `strcat` has read past the end of what can be read. -/
def DiesEarly (ps : List Piece) : Prop :=
  ∃ pre p post, ps = pre ++ p :: post ∧ 0 ∉ p.memory ∧
    (pre.flatMap fun q => cstr q.memory).length + p.memory.length ≤ 9024

section Strings

variable {m s source : Bytes}

theorem cstr_of_holds (hs : 0 ∉ s) (h : Holds m s) : cstr m = s := by
  obtain ⟨rest, rfl⟩ := h
  rw [List.append_assoc]
  exact cstr_append_zero hs rest

theorem strlen_of_holds (hs : 0 ∉ s) (h : Holds m s) : strlen m = s.length :=
  congrArg List.length (cstr_of_holds hs h)

/-- `strcat` appends a string to a string. -/
theorem holds_strcat (hs : 0 ∉ s) (h : Holds m s) (hsource : 0 ∈ source) :
    Holds (strcat m source) (s ++ cstr source) := by
  unfold strcat catBytes overwrite
  rw [if_pos hsource, cstr_of_holds hs h]
  refine ⟨(m.drop (strlen m)).drop (cstr source ++ [0]).length, ?_⟩
  simp only [List.append_assoc]

theorem length_catBytes (hsource : 0 ∈ source) : (catBytes source).length = strlen source + 1 := by
  unfold catBytes strlen
  rw [if_pos hsource, List.length_append, List.length_singleton]

end Strings

section Pieces

variable {m s : Bytes} {p : Piece} {ps : List Piece}

theorem curlWrite_taken (h : 0 ∈ p.memory) : (curlWrite m p).1 = some p.data.length := by
  unfold curlWrite
  rw [if_pos h, p.length_data]

theorem curlWrite_died (h : 0 ∉ p.memory) : (curlWrite m p).1 ≠ some p.data.length := by
  unfold curlWrite
  rw [if_neg h]
  exact (Option.some_ne_none _).symm

theorem transfer_cons_taken (h : 0 ∈ p.memory) : transfer m (p :: ps) = transfer (strcat m p.memory) ps := by
  rw [transfer, if_pos (curlWrite_taken h)]
  rfl

theorem transfer_cons_died (h : 0 ∉ p.memory) : (transfer m (p :: ps)).1 = false := by
  rw [transfer, if_neg (curlWrite_died h)]

theorem transferWrites_cons_taken (h : 0 ∈ p.memory) : transferWrites m (p :: ps) =
    List.range' (strlen m) (strlen p.memory + 1) ++ transferWrites (strcat m p.memory) ps := by
  rw [transferWrites, if_pos (curlWrite_taken h), length_catBytes h]
  rfl

theorem transferWrites_cons_died (h : 0 ∉ p.memory) :
    transferWrites m (p :: ps) = List.range' (strlen m) p.memory.length := by
  rw [transferWrites, if_neg (curlWrite_died h), List.append_nil]
  unfold catBytes
  rw [if_neg h]

/-- **What a transfer leaves**: if it comes to its end, every piece had a terminator, and the strings that were found
    are there one after the other. -/
theorem transfer_ended (hs : 0 ∉ s) (h : Holds m s) (hend : (transfer m ps).1 = true) :
    (∀ p ∈ ps, 0 ∈ p.memory) ∧ Holds (transfer m ps).2 (s ++ ps.flatMap fun p => cstr p.memory) := by
  induction ps generalizing m s with
  | nil => exact ⟨fun p hp => absurd hp List.not_mem_nil, by rwa [List.flatMap_nil, List.append_nil]⟩
  | cons p ps ih =>
      have hp : 0 ∈ p.memory := by
        by_contra hdied
        rw [transfer_cons_died hdied] at hend
        exact absurd hend (by decide)
      rw [transfer_cons_taken hp] at hend ⊢
      have hs' : 0 ∉ s ++ cstr p.memory := List.not_mem_append hs (zero_notMem_cstr _)
      obtain ⟨hall, hholds⟩ := ih hs' (holds_strcat hs h hp) hend
      refine ⟨List.forall_mem_cons.mpr ⟨hp, hall⟩, ?_⟩
      rw [List.flatMap_cons, ← List.append_assoc]
      exact hholds

theorem transfer_of_terminated (hall : ∀ p ∈ ps, 0 ∈ p.memory) : (transfer m ps).1 = true := by
  induction ps generalizing m with
  | nil => rfl
  | cons p ps ih =>
      rw [transfer_cons_taken (hall p List.mem_cons_self)]
      exact ih fun q hq => hall q (List.mem_cons_of_mem p hq)

/-! ## An answer that fits -/

theorem cstr_memory (h : 0 ∉ p.data) : cstr p.memory = p.data ++ cstr p.behind := cstr_append h p.behind

theorem zero_notMem_data (h : 0 ∉ body ps) (hp : p ∈ ps) : 0 ∉ p.data :=
  fun hmem => h (List.mem_flatMap.mpr ⟨p, hp, hmem⟩)

/-- What is found besides the answer. -/
theorem length_found (h : 0 ∉ body ps) : (ps.flatMap fun p => cstr p.memory).length =
    (body ps).length + (ps.flatMap fun p => cstr p.behind).length := by
  induction ps with
  | nil => rfl
  | cons p ps ih =>
      have hrest : 0 ∉ body ps := fun hmem => h (List.mem_append_right _ hmem)
      have hstep := ih hrest
      unfold body at hstep ⊢
      simp only [List.flatMap_cons, List.length_append, cstr_memory (zero_notMem_data h List.mem_cons_self)]
      omega

theorem length_memory_pos (h : p.data ≠ []) : 0 < p.memory.length := by
  unfold Piece.memory
  rw [List.length_append]
  exact Nat.add_pos_left (List.length_pos_of_ne_nil h) _

theorem head?_behind (hdata : 0 ∉ p.data) (hp : 0 ∈ p.memory) (hnil : cstr p.behind = []) :
    p.behind.head? = some 0 := by
  have hbehind : 0 ∈ p.behind := (List.mem_append.mp hp).resolve_left hdata
  cases hb : p.behind with
  | nil =>
      rw [hb] at hbehind
      exact absurd hbehind List.not_mem_nil
  | cons c rest =>
      by_contra hc
      have hne : c ≠ 0 := fun h => hc (by rw [h]; rfl)
      rw [hb] at hnil
      unfold cstr at hnil
      rw [List.takeWhile_cons_of_pos (by simpa using hne)] at hnil
      exact absurd hnil (List.cons_ne_nil _ _)

theorem cstr_behind (h : p.behind.head? = some 0) : cstr p.behind = [] := by
  obtain ⟨rest, hb⟩ := List.head?_eq_some_iff.mp h
  rw [hb]
  rfl

theorem zero_mem_memory (h : p.behind.head? = some 0) : 0 ∈ p.memory :=
  List.mem_append_right _ (List.mem_of_mem_head? h)

/-- **An answer arrives** just if a NUL is behind every piece of it. -/
theorem arrives_iff (hm : Holds m []) (h0 : 0 ∉ body ps) :
    (transfer m ps).1 = true ∧ Holds (transfer m ps).2 (body ps) ↔ ∀ p ∈ ps, p.behind.head? = some 0 := by
  constructor
  · rintro ⟨hend, hbody⟩ p hp
    obtain ⟨hall, hfound⟩ := transfer_ended List.not_mem_nil hm hend
    rw [List.nil_append] at hfound
    have hnot : 0 ∉ ps.flatMap fun p => cstr p.memory := by
      intro hmem
      obtain ⟨q, _, hq⟩ := List.mem_flatMap.mp hmem
      exact zero_notMem_cstr _ hq
    have heq : (ps.flatMap fun p => cstr p.memory) = body ps :=
      (cstr_of_holds hnot hfound).symm.trans (cstr_of_holds h0 hbody)
    have hlen := length_found h0
    rw [heq] at hlen
    have hnil : (ps.flatMap fun p => cstr p.behind) = [] := List.eq_nil_of_length_eq_zero (by omega)
    exact head?_behind (zero_notMem_data h0 hp) (hall p hp) (List.flatMap_eq_nil_iff.mp hnil p hp)
  · intro hall
    have hend : (transfer m ps).1 = true := transfer_of_terminated fun p hp => zero_mem_memory (hall p hp)
    have hfound := (transfer_ended List.not_mem_nil hm hend).2
    have heq : (ps.flatMap fun p => cstr p.memory) = body ps := by
      refine List.flatMap_congr fun p hp => ?_
      rw [cstr_memory (zero_notMem_data h0 hp), cstr_behind (hall p hp), List.append_nil]
    rw [List.nil_append, heq] at hfound
    exact ⟨hend, hfound⟩

/-! ## An answer that does not fit -/

theorem forall_range'_lt {a n b : Nat} (hn : 0 < n) : (∀ i ∈ List.range' a n, i < b) ↔ a + n ≤ b := by
  simp only [List.mem_range'_1]
  constructor
  · intro hall
    have hlast := hall (a + n - 1) (by omega)
    omega
  · rintro hle i ⟨_, hi⟩
    omega

/-- **A long answer** stays inside `httpbuffer` just if the process dies before it is full. -/
theorem inside_iff (hs : 0 ∉ s) (hm : Holds m s) (hs' : s.length < 9024) (hne : ∀ p ∈ ps, p.data ≠ [])
    (h0 : 0 ∉ body ps) (hlong : 9024 ≤ s.length + (body ps).length) :
    (∀ i ∈ transferWrites m ps, i < 9024) ↔ ∃ pre p post, ps = pre ++ p :: post ∧ 0 ∉ p.memory ∧
      s.length + (pre.flatMap fun q => cstr q.memory).length + p.memory.length ≤ 9024 := by
  induction ps generalizing m s with
  | nil =>
      unfold body at hlong
      simp only [List.flatMap_nil, List.length_nil] at hlong
      omega
  | cons p ps ih =>
      have hdata : 0 ∉ p.data := zero_notMem_data h0 List.mem_cons_self
      have hrest : 0 ∉ body ps := fun hmem => h0 (List.mem_append_right _ hmem)
      have hne' : ∀ q ∈ ps, q.data ≠ [] := fun q hq => hne q (List.mem_cons_of_mem p hq)
      have hbody : (body (p :: ps)).length = p.data.length + (body ps).length := List.length_append
      by_cases hp : 0 ∈ p.memory
      · have hfound : (cstr p.memory).length = p.data.length + (cstr p.behind).length := by
          rw [cstr_memory hdata, List.length_append]
        have hlen : (s ++ cstr p.memory).length = s.length + (cstr p.memory).length := List.length_append
        have hs₁ : 0 ∉ s ++ cstr p.memory := List.not_mem_append hs (zero_notMem_cstr _)
        have hstep (h : (s ++ cstr p.memory).length < 9024) :=
          ih hs₁ (holds_strcat hs hm hp) h hne' hrest (by omega)
        rw [transferWrites_cons_taken hp, List.forall_mem_append, forall_range'_lt (Nat.succ_pos _),
          strlen_of_holds hs hm, strlen]
        constructor
        · rintro ⟨hfit, hwrites⟩
          obtain ⟨pre, q, post, rfl, hq, hle⟩ := (hstep (by omega)).mp hwrites
          refine ⟨p :: pre, q, post, rfl, hq, ?_⟩
          rw [List.flatMap_cons, List.length_append]
          omega
        · rintro ⟨pre, q, post, heq, hq, hle⟩
          cases pre with
          | nil =>
              obtain ⟨rfl, _⟩ := List.cons.inj heq
              exact absurd hp hq
          | cons r pre =>
              obtain ⟨rfl, rfl⟩ := List.cons.inj heq
              rw [List.flatMap_cons, List.length_append] at hle
              have hpos : 0 < q.memory.length := length_memory_pos (hne' q (by simp))
              have hfit : (s ++ cstr p.memory).length < 9024 := by omega
              exact ⟨by omega, (hstep hfit).mpr ⟨pre, q, post, rfl, hq, by omega⟩⟩
      · rw [transferWrites_cons_died hp, strlen_of_holds hs hm,
          forall_range'_lt (length_memory_pos (hne p List.mem_cons_self))]
        constructor
        · intro hle
          exact ⟨[], p, ps, rfl, hp, hle⟩
        · rintro ⟨pre, q, post, heq, hq, hle⟩
          cases pre with
          | nil =>
              obtain ⟨rfl, _⟩ := List.cons.inj heq
              exact hle
          | cons r pre =>
              -- the process dies at the first piece without a terminator
              obtain ⟨rfl, _⟩ := List.cons.inj heq
              rw [List.flatMap_cons, List.length_append, cstr_eq hp] at hle
              omega

end Pieces

/-- **The answer in `httpbuffer`.** An answer that fits arrives just if a NUL is behind every piece; one that does not
    fit is written beyond `httpbuffer`, unless the process dies before. -/
theorem accumulates_iff (httpbuffer : Bytes) (ps : List Piece) (hempty : httpbuffer.head? = some 0)
    (hne : ∀ p ∈ ps, p.data ≠ []) (h0 : 0 ∉ body ps) :
    Accumulates httpbuffer ps ↔
      if (body ps).length ≤ 9023 then ∀ p ∈ ps, p.behind.head? = some 0 else DiesEarly ps := by
  have hm : Holds httpbuffer [] := by
    obtain ⟨rest, rfl⟩ := List.head?_eq_some_iff.mp hempty
    exact ⟨rest, rfl⟩
  unfold Accumulates
  split
  next hshort =>
    rw [← arrives_iff hm h0]
    exact ⟨fun h => h.1 hshort, fun h => ⟨fun _ => h, fun hlong => absurd hshort (by omega)⟩⟩
  next hlong =>
    have hinside := inside_iff List.not_mem_nil hm (by decide) hne h0 (by rw [List.length_nil]; omega)
    simp only [List.length_nil, Nat.zero_add] at hinside
    unfold DiesEarly
    rw [← hinside]
    exact ⟨fun h => h.2 (by omega), fun h => ⟨fun hshort => absurd hshort hlong, fun _ => h⟩⟩

/-- Two bytes in one piece. -/
def okPiece (behind : Bytes) : Piece := ⟨1, 2, ascii "ok", behind, by decide⟩

/-- An answer in three pieces, of different sizes. -/
def threePieces : List Piece := [okPiece [0, 120], ⟨4, 1, ascii " yes", [0], by decide⟩, okPiece [120, 0]]

theorem accumulates_iff_ok : Accumulates (List.replicate 9024 0) threePieces ↔
    if (body threePieces).length ≤ 9023 then ∀ p ∈ threePieces, p.behind.head? = some 0
    else DiesEarly threePieces :=
  accumulates_iff (List.replicate 9024 0) threePieces rfl (by decide) (by decide)

/-- A byte behind the piece is taken for a byte of the answer. -/
theorem not_accumulates_ok : ¬ Accumulates (List.replicate 9024 0) [okPiece [120, 0]] := by
  intro h
  have hm : Holds (List.replicate 9024 0) [] := ⟨List.replicate 9023 0, rfl⟩
  have hbehind := (arrives_iff hm (by decide)).mp (h.1 (by decide))
  exact absurd (hbehind (okPiece [120, 0]) List.mem_cons_self) (by decide)

end LavaTunnel
