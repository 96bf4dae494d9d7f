import LavaTunnel.Correctness.ClientHandlers

/-!
# `LavaTunnel.Correctness.Pieces` — the length of a piece of the level

A piece of the level is always 1024 bytes on the wire, and its length says how many of them count. The code receives
as many bytes as the length says, and the rest up to 1024. So a length over 1024 takes bytes of the next packets, and
one that is negative as a `short` is the size of an allocation. The sum of the lengths is an `int`.
-/

namespace LavaTunnel

open Wire Wire.Prog

namespace Client

/-- The sizes that `levelData` passes to `realloc`, `malloc`, `recvW` and `memmove`, in this order but for the first
    `recvW`. -/
def levelDataSizes (payload : Bytes) (t : Tunnel) : List Int :=
  let chunkLenhost := chunkLength payload
  let mapSize := int32 (t.mapSize + chunkLenhost)
  [2, int32 (mapSize + chunkLenhost), chunkLenhost, chunkLenhost] ++
    (if chunkLenhost < 1024 then [1024 - chunkLenhost] else []) ++ [1, chunkLenhost]

/-- What `levelData` does with a packet. -/
abbrev piece (env : Env) (payload : Bytes) (t : Tunnel) : Outcome Tunnel Socket Bytes Unit :=
  (levelData env).run payload t

/-- A piece does no harm: its packet is taken as a whole and one packet is written, all sizes are sizes, and `mapSize`
    does not go back. -/
structure PieceContained (env : Env) (payload : Bytes) (t : Tunnel) : Prop where
  takes : (levelData env).Takes payload t (some ()) (piece env payload t).state (piece env payload t).out
  written : ∃ sent : Bytes, sent.length = 1027 ∧ stream serverSock (piece env payload t).out = 0x03 :: sent
  sizes : ∀ n ∈ levelDataSizes payload t, 0 ≤ n
  mapSize : t.mapSize ≤ (piece env payload t).state.mapSize ∧ 0 ≤ (piece env payload t).state.mapSize

/-- All pieces of a sequence do no harm, one after the other. -/
def Contained (env : Env) : List Bytes → Tunnel → Prop
  | [], _ => True
  | payload :: ps, t => PieceContained env payload t ∧ Contained env ps (piece env payload t).state

/-- The lengths are in range, and so are the sums, with the last length once more for the `realloc`. -/
def InRange : List Bytes → Int → Prop
  | [], _ => True
  | payload :: ps, size => (0 ≤ chunkLength payload ∧ chunkLength payload ≤ 1024) ∧
      size + 2 * chunkLength payload < 2 ^ 31 ∧ InRange ps (size + chunkLength payload)

instance (ps : List Bytes) (size : Int) : Decidable (InRange ps size) :=
  match ps with
  | [] => isTrue trivial
  | payload :: ps =>
      have : Decidable (InRange ps (size + chunkLength payload)) := instDecidableInRange ps _
      inferInstanceAs (Decidable ((_ ∧ _) ∧ _ ∧ InRange ps _))

section Piece

variable {env : Env} {payload : Bytes} {t : Tunnel}

theorem levelChunk_of_length (hlen : payload.length = 1027) (hpos : 0 ≤ chunkLength payload)
    (hmax : chunkLength payload ≤ 1024) : LevelChunk payload := by
  refine ⟨hpos, ?_⟩
  rw [hlen, max_eq_left hmax]
  rfl

theorem chunkLength_append (hlen : 2 ≤ payload.length) (rest : Bytes) :
    chunkLength (payload ++ rest) = chunkLength payload := by
  unfold chunkLength
  rw [List.take_append_of_le_length hlen]

/-- A piece with a length in range. -/
theorem piece_of_levelChunk (env : Env) (t : Tunnel) (h : LevelChunk payload) :
    (levelData env).Takes payload t (some ()) (piece env payload t).state (piece env payload t).out ∧
      stream serverSock (piece env payload t).out = 0x03 :: payload ∧
      (piece env payload t).state.mapSize = int32 (t.mapSize + chunkLength payload) := by
  obtain ⟨out, htakes, hout⟩ := takes_levelData env t h
  have hrun := htakes []
  rw [List.append_nil] at hrun
  unfold piece
  rw [hrun]
  exact ⟨htakes, hout, rfl⟩

/-- **A length over 1024** takes more than the packet. -/
theorem not_takes_of_long (hlen : payload.length = 1027) (hlong : 1024 < chunkLength payload) {t' : Tunnel}
    {out : List (Socket × Bytes)} : ¬ (levelData env).Takes payload t (some ()) t' out := by
  intro htakes
  -- with the bytes it asks for behind it, the packet is a longer piece
  have hlength : chunkLength (payload ++ List.replicate (chunkLength payload - 1024).toNat 0) = chunkLength payload :=
    chunkLength_append (by omega) _
  have hchunk : LevelChunk (payload ++ List.replicate (chunkLength payload - 1024).toNat 0) := by
    refine ⟨by omega, ?_⟩
    rw [hlength, List.length_append, List.length_replicate, hlen]
    omega
  obtain ⟨out', hlonger, -⟩ := takes_levelData env t hchunk
  have hrun := hlonger []
  rw [List.append_nil, htakes] at hrun
  have hrest : List.replicate (chunkLength payload - 1024).toNat (0 : UInt8) = [] := congrArg Outcome.input hrun
  rw [List.replicate_eq_nil_iff] at hrest
  omega

/-- **The sizes of a piece** whose length is not negative: no other one is just if the length can be added twice. -/
theorem levelDataSizes_nonneg (hpos : 0 ≤ chunkLength payload) (ht : 0 ≤ t.mapSize) (hint : t.mapSize < 2 ^ 31) :
    (∀ n ∈ levelDataSizes payload t, 0 ≤ n) ↔ t.mapSize + 2 * chunkLength payload < 2 ^ 31 := by
  have hshort : chunkLength payload < 2 ^ 15 := Int16.toInt_lt _
  constructor
  · intro h
    have hrealloc : 0 ≤ int32 (int32 (t.mapSize + chunkLength payload) + chunkLength payload) :=
      h _ (by simp [levelDataSizes])
    -- a sum that an `int` cannot hold comes out negative
    by_contra hover
    rw [int32_add, int32_of_overflow (by omega) (by omega)] at hrealloc
    omega
  · intro hsum n hn
    have hrealloc : int32 (int32 (t.mapSize + chunkLength payload) + chunkLength payload) =
        t.mapSize + 2 * chunkLength payload := by
      rw [int32_add, int32_of_range (by omega) (by omega)]
      omega
    simp only [levelDataSizes, hrealloc, List.mem_append, List.mem_cons, List.not_mem_nil, or_false] at hn
    split at hn
    · simp only [List.mem_singleton] at hn
      omega
    · simp only [List.not_mem_nil, or_false] at hn
      omega

/-- **A piece does no harm** just if its length is in range and the sizes can be counted. -/
theorem pieceContained_iff (hlen : payload.length = 1027) (ht : 0 ≤ t.mapSize) : PieceContained env payload t ↔
    (0 ≤ chunkLength payload ∧ chunkLength payload ≤ 1024) ∧ t.mapSize + 2 * chunkLength payload < 2 ^ 31 := by
  constructor
  · intro h
    have hpos : 0 ≤ chunkLength payload := h.sizes _ (by simp [levelDataSizes])
    have hmax : chunkLength payload ≤ 1024 := by
      by_contra hlong
      exact not_takes_of_long hlen (not_le.mp hlong) h.takes
    refine ⟨⟨hpos, hmax⟩, ?_⟩
    obtain ⟨-, -, hstate⟩ := piece_of_levelChunk env t (levelChunk_of_length hlen hpos hmax)
    have hup := h.mapSize
    rw [hstate] at hup
    have hsize : int32 (t.mapSize + chunkLength payload) < 2 ^ 31 := Int.bmod_lt (by decide)
    exact (levelDataSizes_nonneg hpos ht (by omega)).mp h.sizes
  · rintro ⟨⟨hpos, hmax⟩, hsum⟩
    obtain ⟨htakes, hout, hstate⟩ := piece_of_levelChunk env t (levelChunk_of_length hlen hpos hmax)
    have hint : int32 (t.mapSize + chunkLength payload) = t.mapSize + chunkLength payload :=
      int32_of_range (by omega) (by omega)
    refine ⟨htakes, ⟨payload, hlen, hout⟩, (levelDataSizes_nonneg hpos ht (by omega)).mpr hsum, ?_⟩
    rw [hstate, hint]
    omega

end Piece

end Client

/-- **The lengths of the pieces** do no harm just if they are all in range, and so are their sums. -/
theorem pieces_contained_iff (env : Env) (ps : List Bytes) (hps : ∀ payload ∈ ps, payload.length = 1027) (t : Tunnel)
    (ht : 0 ≤ t.mapSize) : Client.Contained env ps t ↔ Client.InRange ps t.mapSize := by
  -- step by step: a piece that does no harm has added its length
  induction ps generalizing t with
  | nil => exact Iff.rfl
  | cons payload ps ih =>
      have hlen := hps payload List.mem_cons_self
      unfold Client.Contained Client.InRange
      rw [Client.pieceContained_iff hlen ht, and_assoc]
      refine and_congr_right fun hrange => and_congr_right fun hsum => ?_
      obtain ⟨-, -, hstate⟩ := Client.piece_of_levelChunk env t
        (Client.levelChunk_of_length hlen hrange.1 hrange.2)
      rw [int32_of_range (by omega) (by omega)] at hstate
      rw [ih (fun payload hmem => hps payload (List.mem_cons_of_mem _ hmem)) _ (by omega), hstate]

/-- A piece that says it has one byte. -/
def pieceOne : Bytes := [0, 1] ++ List.replicate 1025 0

/-- Two such pieces. -/
theorem pieces_contained_two : Client.Contained {} [pieceOne, pieceOne] {} :=
  (pieces_contained_iff {} [pieceOne, pieceOne] (by decide +kernel) {} (by decide)).mpr (by decide +kernel)

/-- A piece that says it has 65535 bytes. -/
def pieceNegative : Bytes := [255, 255] ++ List.replicate 1025 0

/-- It asks for less than no memory. -/
theorem pieces_not_contained : ¬ ∀ (env : Env) (ps : List Bytes), (∀ payload ∈ ps, payload.length = 1027) →
    ∀ t : Tunnel, 0 ≤ t.mapSize → Client.Contained env ps t := by
  intro hall
  obtain ⟨h, -⟩ := hall {} [pieceNegative] (by decide +kernel) {} (by decide)
  exact absurd (h.sizes (-1) (by decide +kernel)) (by decide)

end LavaTunnel
