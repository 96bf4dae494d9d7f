import LavaTunnel.Correctness.Runs

/-!
# `LavaTunnel.Correctness.FastMap` — the level, however it is encoded

Without `FastMap` a level comes as gzip, with four bytes of size in front of the blocks; with `FastMap` it
comes as raw deflate, the blocks alone. `levelFinal` inflates it as gzip in both cases. So the map is the level
without `FastMap`, and with `FastMap` it is what was in the output buffer.
-/

namespace LavaTunnel

open Wire Wire.Prog

/-- What zlib does with the two encodings when it is asked for gzip: `gzip content s` and `deflate content s`
    say that `s` encodes `content`. A raw stream never starts like a gzip header, and is refused. -/
structure Zlib.Gunzips (z : Zlib) (gzip deflate : Bytes → Bytes → Prop) : Prop where
  gunzip : ∀ {content s : Bytes}, gzip content s → ∀ room, (z.inflate 31 s room).2 = content.take room
  refuses : ∀ {content s : Bytes}, deflate content s → ∀ room, (z.inflate 31 s room).2 = []
  ended : z.EndDocumented

namespace Client

/-- The level data that has come since the last level was finished, after some packets. -/
def transferred (s : Bytes) (ps : List Packet) : Bytes :=
  ps.foldl (fun s p => if p.1 = 0x03 then s ++ field p.2 2 (chunkLength p.2).toNat
    else if p.1 = 0x04 then [] else s) s

/-- The map is the array of blocks. -/
def MapIs (blocks : Bytes) (t : Tunnel) : Prop :=
  t.mapAlloc = blocks.length ∧ ∀ i (hi : i < blocks.length), t.map i = blocks[i]

/-- The server has sent the blocks in the encoding that has been negotiated. -/
inductive Encoded (gzip deflate : Bytes → Bytes → Prop) (blocks s : Bytes) (t : Tunnel) : Prop
  | plain {size : Bytes} (h : t.negotiated CPE.fastMap = false) (hfour : size.length = 4)
      (hgzip : gzip (size ++ blocks) s)
  | fast (h : t.negotiated CPE.fastMap = true) (hdeflate : deflate blocks s)

/-- The number of blocks that the last packet of a level announces. -/
def announcedSize (payload : Bytes) : Nat :=
  (host (field payload 0 2)).toNat * (host (field payload 2 2)).toNat * (host (field payload 4 2)).toNat

/-! ## The packets of a transfer -/

/-- The tunnel collects what is transferred. -/
theorem mapC_receive (env : Env) (ps : List Packet) (v : Level) :
    (ps.foldl (Level.receive env) v).mapC = transferred v.mapC ps := by
  induction ps generalizing v with
  | nil => rfl
  | cons p ps ih =>
      have hstep : (v.receive env p).mapC =
          if p.1 = 0x03 then v.mapC ++ field p.2 2 (chunkLength p.2).toNat
          else if p.1 = 0x04 then [] else v.mapC := by
        unfold Level.receive
        split
        · rfl
        · split
          · rfl
          · split
            · rfl
            · rfl
      rw [List.foldl_cons, ih, hstep]
      rfl

/-! ## The end of the transfer -/

/-- What `inflate` did not write is what was in the output buffer. -/
theorem map_inflated_short {env : Env} {t : Tunnel} {i : Nat} (hi : i < uncompressedsize t)
    (hshort : (env.zlib.inflate 31 t.mapC ((uncompressedsize t + 4) % 2 ^ 32)).2.length ≤ 4) :
    (inflated env t).map i = env.junk 0 (i + 4) := by
  have hjunk : (env.fill (uncompressedsize t + 4)
      (env.zlib.inflate 31 t.mapC ((uncompressedsize t + 4) % 2 ^ 32)).2)[i + 4]? = some (env.junk 0 (i + 4)) :=
    getElem?_fill env (by omega) (by omega)
  have hrange : (0 : Int) ≤ i ∧ (i : Int) < uncompressedsize t := by omega
  show (if (0 : Int) ≤ i ∧ (i : Int) < uncompressedsize t then _ else _) = _
  rw [if_pos hrange, Int.toNat_natCast, List.getD_eq_getElem?_getD, hjunk]
  rfl

/-- Behind the four bytes of size come the blocks. -/
theorem map_inflated_whole {env : Env} {t : Tunnel} {size blocks : Bytes} (hsize : size.length = 4)
    (hout : (env.zlib.inflate 31 t.mapC ((uncompressedsize t + 4) % 2 ^ 32)).2 = size ++ blocks)
    (hlen : uncompressedsize t = blocks.length) {i : Nat} (hi : i < blocks.length) :
    (inflated env t).map i = blocks[i] := by
  have hfill : env.fill (uncompressedsize t + 4)
      (env.zlib.inflate 31 t.mapC ((uncompressedsize t + 4) % 2 ^ 32)).2 = size ++ blocks := by
    rw [hout]
    exact fill_of_length (by rw [List.length_append, hsize, hlen, Nat.add_comm])
  have hrange : (0 : Int) ≤ i ∧ (i : Int) < uncompressedsize t := by omega
  show (if (0 : Int) ≤ i ∧ (i : Int) < uncompressedsize t then
    (env.fill (uncompressedsize t + 4) _).getD ((i : Int).toNat + 4) 0 else _) = _
  rw [if_pos hrange, hfill, Int.toNat_natCast, List.getD_eq_getElem?_getD,
    List.getElem?_append_right (by omega), hsize, Nat.add_sub_cancel, List.getElem?_eq_getElem hi]
  rfl

/-- **The last step**: the map is the level if it came as gzip, with room for all of it. In every other case
    it is what was in the buffer. -/
theorem mapIs_inflated_iff {env : Env} {gzip deflate : Bytes → Bytes → Prop} (hz : env.zlib.Gunzips gzip deflate)
    {t : Tunnel} {blocks : Bytes} (hsize : uncompressedsize t = blocks.length % 2 ^ 32)
    (henc : Encoded gzip deflate blocks t.mapC t) :
    MapIs blocks (inflated env t) ↔ t.negotiated CPE.fastMap = false ∧ blocks.length + 4 < 2 ^ 32 ∨
      blocks.length < 2 ^ 32 ∧ ∀ i (hi : i < blocks.length), blocks[i] = env.junk 0 (i + 4) := by
  by_cases hlarge : 2 ^ 32 ≤ blocks.length
  · -- the size does not fit into a `uLong`
    refine iff_of_false (fun h => ?_) (by omega)
    have halloc : uncompressedsize t = blocks.length := h.1
    omega
  have hlt : blocks.length < 2 ^ 32 := by omega
  rw [Nat.mod_eq_of_lt hlt] at hsize
  by_cases hgood : t.negotiated CPE.fastMap = false ∧ blocks.length + 4 < 2 ^ 32
  · obtain ⟨hplain, hroom⟩ := hgood
    refine iff_of_true ⟨hsize, fun i hi => ?_⟩ (Or.inl ⟨hplain, hroom⟩)
    cases henc with
    | fast hfast _ => exact absurd (hplain.symm.trans hfast) (by decide)
    | plain _ hfour hgzip =>
        refine map_inflated_whole hfour ?_ hsize hi
        rw [hz.gunzip hgzip, hsize, Nat.mod_eq_of_lt hroom]
        apply List.take_of_length_le
        rw [List.length_append, hfour]
        omega
  · -- nothing, or at most three bytes, have been written
    have hshort : (env.zlib.inflate 31 t.mapC ((uncompressedsize t + 4) % 2 ^ 32)).2.length ≤ 4 := by
      cases henc with
      | fast _ hdeflate =>
          rw [hz.refuses hdeflate]
          exact Nat.zero_le 4
      | plain hplain _ hgzip =>
          have hwrap : ¬ blocks.length + 4 < 2 ^ 32 := fun h => hgood ⟨hplain, h⟩
          rw [hz.gunzip hgzip, List.length_take, hsize]
          omega
    have hmap : ∀ i, i < blocks.length → (inflated env t).map i = env.junk 0 (i + 4) := by
      intro i hi
      exact map_inflated_short (by omega) hshort
    constructor
    · intro h
      exact Or.inr ⟨hlt, fun i hi => (h.2 i hi).symm.trans (hmap i hi)⟩
    · intro h
      rcases h with h | ⟨-, hjunk⟩
      · exact absurd h hgood
      · exact ⟨hsize, fun i hi => (hmap i hi).trans (hjunk i hi).symm⟩

/-- The transfer, from the state the earlier packets find. -/
theorem mapIs_run_iff {env : Env} {gzip deflate : Bytes → Bytes → Prop} (hz : env.zlib.Gunzips gzip deflate)
    {ps : List Packet} (hkick : ∀ p ∈ ps, p.1 ≠ 0x0e) {dims : Bytes} {fs : List (Tunnel → Tunnel)}
    (hlen : fs.length = ps.length) {f : Tunnel → Tunnel} (hfs : ∀ g ∈ fs ++ [f], ∀ t, level (g t) = level t)
    {l : McLocals} {t : Tunnel} (hps : CompleteRun env (fs ++ [f]) l (ps ++ [(0x04, dims)]) t) (rest : Bytes)
    {blocks : Bytes} (hsize : blocks.length = announcedSize dims)
    (henc : Encoded gzip deflate blocks (transferred t.mapC ps)
      (f (stateAfter env (fs ++ [f]) l (encode (ps ++ [(0x04, dims)]) ++ rest) t ps.length))) :
    MapIs blocks (stateAfter env (fs ++ [f]) l (encode (ps ++ [(0x04, dims)]) ++ rest) t (ps.length + 1)) ↔
      (f (stateAfter env (fs ++ [f]) l (encode (ps ++ [(0x04, dims)]) ++ rest) t ps.length)).negotiated
          CPE.fastMap = false ∧ blocks.length + 4 < 2 ^ 32 ∨
        blocks.length < 2 ^ 32 ∧ ∀ i (hi : i < blocks.length), blocks[i] = env.junk 0 (i + 4) := by
  have hkick' : ∀ p ∈ (ps ++ [((0x04 : UInt8), dims)]).dropLast, p.1 ≠ 0x0e := by rwa [List.dropLast_concat]
  let r : ServerRun env := ⟨ps ++ [(0x04, dims)], fs ++ [f], l, t, rest, by simp [hlen], hkick', hps,
    fun _ _ _ => hz.ended⟩
  have hlast : ps.length < r.packets.length := by
    show ps.length < (ps ++ [(0x04, dims)]).length
    simp
  have hfound : r.found ps.length = f (r.after ps.length) := by
    show ((fs ++ [f]).getD ps.length id) _ = _
    rw [← hlen, List.getD_eq_getElem?_getD, List.getElem?_concat_length]
    rfl
  -- the other threads leave the level as it has been received
  have hmapC : (r.found ps.length).mapC = transferred t.mapC ps := by
    have hlevel := r.view_eq_foldl level (Level.receive env) hfs (fun q _ t _ => (received_frame env q t).2.2)
      (Nat.le_of_lt hlast)
    rw [← r.found_of_kept hfs, show r.packets.take ps.length = ps from List.take_left] at hlevel
    exact (congrArg Level.mapC hlevel).trans (mapC_receive env ps (level t))
  have hend : r.after (ps.length + 1) = inflated env (resized dims (r.found ps.length)) := by
    rw [r.after_succ hlast, show r.packets[ps.length] = (0x04, dims) from List.getElem_concat_length rfl _]
    rfl
  show MapIs blocks (r.after (ps.length + 1)) ↔ (f (r.after ps.length)).negotiated CPE.fastMap = false ∧ _ ∨ _
  rw [hend, ← hfound]
  -- the size of the level changes neither what has come nor what has been negotiated
  have henc' : Encoded gzip deflate blocks (r.found ps.length).mapC (resized dims (r.found ps.length)) := by
    rw [hmapC]
    have henc₀ : Encoded gzip deflate blocks (transferred t.mapC ps) (r.found ps.length) := by
      rw [hfound]
      exact henc
    cases henc₀ with
    | plain h hfour hgzip => exact .plain h hfour hgzip
    | fast h hdeflate => exact .fast h hdeflate
  exact mapIs_inflated_iff hz (congrArg (· % 2 ^ 32) hsize.symm) henc'

end Client

/-- **The level, however it is encoded.** When the server has transferred the blocks of a level in the encoding
    that was negotiated, and nobody else touches the level, then at the end of the transfer the map is the level
    just if it came as gzip and a `uLong` can count it, or if the blocks were in the output buffer anyway. -/
theorem map_is_level_iff (env : Env) (gzip deflate : Bytes → Bytes → Prop) (hz : env.zlib.Gunzips gzip deflate)
    (ps : List Packet) (hkick : ∀ p ∈ ps, p.1 ≠ 0x0e) (dims : Bytes) (fs : List (Tunnel → Tunnel))
    (hlen : fs.length = ps.length) (f : Tunnel → Tunnel)
    (hfs : ∀ g ∈ fs ++ [f], ∀ t, Client.level (g t) = Client.level t) (l : McLocals) (t : Tunnel)
    (hps : Client.CompleteRun env (fs ++ [f]) l (ps ++ [(0x04, dims)]) t) (rest blocks : Bytes)
    (hsize : blocks.length = Client.announcedSize dims)
    (henc : Client.Encoded gzip deflate blocks (Client.transferred t.mapC ps)
      (f (Client.stateAfter env (fs ++ [f]) l (encode (ps ++ [(0x04, dims)]) ++ rest) t ps.length))) :
    Client.MapIs blocks
        (Client.stateAfter env (fs ++ [f]) l (encode (ps ++ [(0x04, dims)]) ++ rest) t (ps.length + 1)) ↔
      (f (Client.stateAfter env (fs ++ [f]) l (encode (ps ++ [(0x04, dims)]) ++ rest) t ps.length)).negotiated
          CPE.fastMap = false ∧ blocks.length + 4 < 2 ^ 32 ∨
        blocks.length < 2 ^ 32 ∧ ∀ i (hi : i < blocks.length), blocks[i] = env.junk 0 (i + 4) :=
  Client.mapIs_run_iff hz hkick hlen hfs hps rest hsize henc

/-! ## A level of one block -/

/-- The size 1 and the block 7, as gzip. -/
def gzipSeven : Bytes :=
  [31, 139, 8, 0, 0, 0, 0, 0, 2, 3, 99, 96, 96, 96, 100, 7, 0, 255, 83, 93, 65, 5, 0, 0, 0]

/-- The block 7, as raw deflate. -/
def deflateSeven : Bytes := [99, 7, 0]

/-- The gzip stream, and what it encodes. -/
def GzipSeven (content s : Bytes) : Prop := content = [0, 0, 0, 1, 7] ∧ s = gzipSeven

/-- The raw stream, and what it encodes. -/
def DeflateSeven (content s : Bytes) : Prop := content = [7] ∧ s = deflateSeven

/-- zlib on these two: asked for gzip, it refuses the raw stream with `Z_DATA_ERROR`. -/
def zlibSeven : Zlib where
  inflateInit2 _ := 0
  inflate bits s room := if bits = 31 ∧ s = gzipSeven then (1, ([0, 0, 0, 1, 7] : Bytes).take room) else (-3, [])
  inflateEnd _ _ _ := 0

theorem gunzips_zlibSeven : zlibSeven.Gunzips GzipSeven DeflateSeven where
  gunzip := by
    rintro content s ⟨rfl, rfl⟩ room
    rfl
  refuses := by
    rintro content s ⟨rfl, rfl⟩ room
    rfl
  ended := fun _ _ _ => Or.inl rfl

/-- A piece of level data. -/
def levelPiece (data : Bytes) : Packet :=
  (0x03, bytesOf (htons (UInt16.ofNat data.length)) ++ data ++ List.replicate (1024 - data.length) 0 ++ [100])

/-- The transfer of a level of one block, up to its size. -/
def gzipTransfer : List Packet := [(0x02, []), levelPiece gzipSeven]

def deflateTransfer : List Packet := [(0x02, [0, 0, 0, 1]), levelPiece deflateSeven]

/-- The size. -/
def oneByOne : Bytes := [0, 1, 0, 1, 0, 1]

/-- Both sides have announced `FastMap`. -/
def fastSession : Tunnel := { cpeClient := { fastMap := true }, cpeServer := { fastMap := true } }

theorem level_id : ∀ g ∈ [id, id] ++ [id], ∀ t : Tunnel, Client.level (g t) = Client.level t := by
  intro g hg t
  have hid : g = id := by simpa using hg
  rw [hid]
  rfl

theorem completeRun_transfer {env : Env} {t : Tunnel} {p q : Packet} (hp : FromServer t.modes p) (hq : LevelChunk q.2)
    (hid : q.1 = 0x03) : Client.CompleteRun env ([id, id] ++ [id]) {} ([p, q] ++ [(0x04, oneByOne)]) t := by
  refine ⟨hp, fun _ t₁ _ _ => ⟨?_, fun _ t₂ _ _ => ⟨?_, fun _ _ _ _ => trivial⟩⟩⟩
  · show if q.1 = 0x03 then LevelChunk q.2 else _
    rw [if_pos hid]
    exact hq
  · show (0x04, 6) ∈ serverPackets t₂.modes
    simp [serverPackets]

/-- Without `FastMap` the block arrives. -/
theorem map_is_level_iff_gzip :
    Client.MapIs [7] (Client.stateAfter { zlib := zlibSeven } ([id, id] ++ [id]) {}
        (encode (gzipTransfer ++ [(0x04, oneByOne)]) ++ []) {} (2 + 1)) ↔
      (id (Client.stateAfter { zlib := zlibSeven } ([id, id] ++ [id]) {}
          (encode (gzipTransfer ++ [(0x04, oneByOne)]) ++ []) {} 2)).negotiated CPE.fastMap = false ∧ 1 + 4 < 2 ^ 32 ∨
        1 < 2 ^ 32 ∧ ∀ i (hi : i < 1), ([7] : Bytes)[i] = ({ zlib := zlibSeven } : Env).junk 0 (i + 4) := by
  refine map_is_level_iff { zlib := zlibSeven } _ _ gunzips_zlibSeven gzipTransfer
    (by decide) oneByOne [id, id] rfl id
    level_id {} {} (completeRun_transfer (by decide) (by decide +kernel) rfl) [] [7] (by decide) ?_
  have hfast : (Client.stateAfter { zlib := zlibSeven } ([id, id] ++ [id]) {}
      (encode (gzipTransfer ++ [(0x04, oneByOne)]) ++ []) {} 2).negotiated CPE.fastMap = false := by
    decide +kernel
  have hsent : Client.transferred ({} : Tunnel).mapC gzipTransfer = gzipSeven := by decide +kernel
  have hencodes : GzipSeven ([0, 0, 0, 1] ++ [7]) (Client.transferred ({} : Tunnel).mapC gzipTransfer) := ⟨rfl, hsent⟩
  exact Client.Encoded.plain hfast rfl hencodes

/-- With `FastMap` the map is what was in the buffer. -/
theorem fastMap_loses_level :
    Client.CompleteRun { zlib := zlibSeven } ([id, id] ++ [id]) {} (deflateTransfer ++ [(0x04, oneByOne)])
        fastSession ∧
      Client.Encoded GzipSeven DeflateSeven [7] (Client.transferred fastSession.mapC deflateTransfer)
        (Client.stateAfter { zlib := zlibSeven } ([id, id] ++ [id]) {}
          (encode (deflateTransfer ++ [(0x04, oneByOne)])) fastSession 2) ∧
      ¬ Client.MapIs [7] (Client.stateAfter { zlib := zlibSeven } ([id, id] ++ [id]) {}
        (encode (deflateTransfer ++ [(0x04, oneByOne)])) fastSession 3) := by
  refine ⟨completeRun_transfer (by decide) (by decide +kernel) rfl, ?_, ?_⟩
  · have hfast : (Client.stateAfter { zlib := zlibSeven } ([id, id] ++ [id]) {}
        (encode (deflateTransfer ++ [(0x04, oneByOne)])) fastSession 2).negotiated CPE.fastMap = true := by
      decide +kernel
    have hsent : Client.transferred fastSession.mapC deflateTransfer = deflateSeven := by decide +kernel
    have hencodes : DeflateSeven [7] (Client.transferred fastSession.mapC deflateTransfer) := ⟨rfl, hsent⟩
    exact Client.Encoded.fast hfast hencodes
  · have hzero : (Client.stateAfter { zlib := zlibSeven } ([id, id] ++ [id]) {}
        (encode (deflateTransfer ++ [(0x04, oneByOne)])) fastSession 3).map 0 = 0 := by
      decide +kernel
    generalize Client.stateAfter { zlib := zlibSeven } ([id, id] ++ [id]) {}
      (encode (deflateTransfer ++ [(0x04, oneByOne)])) fastSession 3 = t at hzero
    rintro ⟨-, hblocks⟩
    have hseven : t.map 0 = 7 := hblocks 0 (by decide)
    exact absurd (hzero.symm.trans hseven) (by decide)

end LavaTunnel
