import LavaTunnel.Correctness.FastMap
import LavaTunnel.Correctness.MapBounds

/-!
# `LavaTunnel.Correctness.Finalize` — which levels are accepted

`levelFinalize` keeps the statuses of `inflateInit2`, `inflate` and `inflateEnd` in one variable, and looks at it
once, at the end. So it knows whether the stream could be freed, not whether it could be inflated: a corrupt level is
accepted, with what was in the output buffer. The size of the level is computed in 32 bits and accepted as it is.
-/

namespace LavaTunnel

open Wire Wire.Prog Scan

namespace Client

/-! ## A level that is inflated -/

/-- What `inflate` reports and writes. -/
def inflation (env : Env) (t : Tunnel) : Int × Bytes :=
  env.zlib.inflate 31 t.mapC ((uncompressedsize t + 4) % 2 ^ 32)

/-- `inflate` has come to the end of the stream (`Z_STREAM_END`), and it has written the whole level. -/
def WholeLevel (env : Env) (t : Tunnel) : Prop :=
  (inflation env t).1 = 1 ∧ t.volume + 4 ≤ (inflation env t).2.length

/-- The blocks behind the four bytes of size. -/
def blocksOf (env : Env) (t : Tunnel) : Bytes := ((inflation env t).2.drop 4).take t.volume.toNat

/-- The level has been rejected, and the map is the one of `t`. -/
def Rejected (t : Tunnel) (o : Outcome Tunnel Socket Bytes Unit) : Prop :=
  o.result = none ∧ o.state.map = t.map ∧ o.state.mapAlloc = t.mapAlloc

/-- A complete level has been accepted, and the map is its blocks. -/
def Accepted (env : Env) (t : Tunnel) (o : Outcome Tunnel Socket Bytes Unit) : Prop :=
  WholeLevel env t ∧ MapIs (blocksOf env t) o.state

section Sizes

variable {env : Env} {t : Tunnel}

theorem volume_eq_natCast (t : Tunnel) : t.volume = (t.lvlx.toNat * t.lvly.toNat * t.lvlz.toNat : Nat) := by
  unfold Tunnel.volume
  push_cast
  rfl

theorem uncompressedsize_cast (t : Tunnel) : (uncompressedsize t : Int) = t.volume % 2 ^ 32 := by
  rw [volume_eq_natCast]
  unfold uncompressedsize
  push_cast
  rfl

/-- **The computed size** is the number of blocks just if it fits. -/
theorem uncompressedsize_eq_iff (t : Tunnel) : (uncompressedsize t : Int) = t.volume ↔ t.volume < 2 ^ 32 := by
  have hcast := uncompressedsize_cast t
  have hpos : 0 ≤ t.volume := by
    rw [volume_eq_natCast]
    exact Int.natCast_nonneg _
  constructor
  · intro h
    rw [← h, hcast]
    exact Int.emod_lt_of_pos _ (by norm_num)
  · intro h
    rw [hcast, Int.emod_eq_of_lt hpos h]

theorem length_blocksOf (h : WholeLevel env t) : ((blocksOf env t).length : Int) = t.volume := by
  have hvolume := volume_eq_natCast t
  have hroom := h.2
  unfold blocksOf
  rw [List.length_take, List.length_drop]
  omega

/-- A complete level becomes the map, if its size fits. -/
theorem mapIs_blocksOf (h : WholeLevel env t) (hsize : t.volume < 2 ^ 32) :
    MapIs (blocksOf env t) (inflated env t) := by
  have hlen := length_blocksOf h
  have hexact := (uncompressedsize_eq_iff t).mpr hsize
  have hvolume := volume_eq_natCast t
  refine ⟨by exact_mod_cast hexact.trans hlen.symm, fun i hi => ?_⟩
  have hroom := h.2
  have hrange : (0 : Int) ≤ i ∧ (i : Int) < uncompressedsize t := by omega
  have hout : (env.fill (uncompressedsize t + 4) (inflation env t).2)[i + 4]? = (inflation env t).2[i + 4]? := by
    unfold Env.fill
    rw [List.getElem?_take_of_lt (by omega), List.getElem?_append_left (by omega)]
  have hmap : (inflated env t).map i =
      (env.fill (uncompressedsize t + 4) (inflation env t).2).getD ((i : Int).toNat + 4) 0 := if_pos hrange
  have hblock : (blocksOf env t)[i]? = (inflation env t).2[i + 4]? := by
    unfold blocksOf
    rw [List.getElem?_take_of_lt (by omega), List.getElem?_drop, Nat.add_comm]
  rw [hmap, Int.toNat_natCast, List.getD_eq_getElem?_getD, hout, ← hblock, List.getElem?_eq_getElem hi,
    Option.getD_some]

end Sizes

end Client

/-- A level is rejected just if zlib says an error when the stream is freed. -/
theorem Client.rejected_iff (env : Env) (t : Tunnel) (input : Bytes) :
    Client.Rejected t ((Client.levelFinalize env).run input t) ↔
      Client.ZlibError env (sized (pointIn env input) t) := by
  by_cases herror : Client.ZlibError env (sized (pointIn env input) t)
  · obtain ⟨hresult, hstate⟩ := run_levelFinalize_error env input herror
    refine iff_of_true ⟨hresult, ?_, ?_⟩ herror
    · rw [hstate]
      rfl
    · rw [hstate]
      rfl
  · obtain ⟨hresult, -⟩ := run_levelFinalize_done env input herror
    refine iff_of_false ?_ herror
    rintro ⟨hnone, -⟩
    rw [hresult] at hnone
    exact Option.some_ne_none () hnone

/-- **A level is inflated or rejected** just if zlib says an error when the stream is freed, or the stream is complete,
    with all the bytes of the level, and their number fits into 32 bits. -/
theorem level_inflated_iff (env : Env) (t : Tunnel) (input : Bytes) :
    Client.Rejected t ((Client.levelFinalize env).run input t) ∨
        Client.Accepted env (sized (pointIn env input) t) ((Client.levelFinalize env).run input t) ↔
      Client.ZlibError env (sized (pointIn env input) t) ∨
        Client.WholeLevel env (sized (pointIn env input) t) ∧ (sized (pointIn env input) t).volume < 2 ^ 32 := by
  rw [Client.rejected_iff]
  refine or_congr_right' fun herror => ?_
  obtain ⟨-, hstate⟩ := run_levelFinalize_done env input herror
  rw [Client.Accepted, hstate]
  constructor
  · rintro ⟨hwhole, halloc, -⟩
    -- the size of the map is what was computed
    refine ⟨hwhole, (Client.uncompressedsize_eq_iff _).mp ?_⟩
    rw [← Client.length_blocksOf hwhole, ← halloc]
    rfl
  · rintro ⟨hwhole, hsize⟩
    exact ⟨hwhole, Client.mapIs_blocksOf hwhole hsize⟩

/-- zlib with a corrupt stream: `inflate` says `Z_DATA_ERROR`, and `inflateEnd` says `Z_OK`. -/
def zlibCorrupt : Zlib := ⟨fun _ => 0, fun _ _ _ => (-3, []), fun _ _ _ => 0⟩

/-- The level is accepted, and its block is what was in the output buffer. -/
theorem corrupt_accepted : ¬ ∀ (env : Env) (t : Tunnel) (input : Bytes),
    Client.Rejected t ((Client.levelFinalize env).run input t) ∨
      Client.Accepted env (sized (pointIn env input) t) ((Client.levelFinalize env).run input t) := by
  intro hall
  rcases hall { zlib := zlibCorrupt } { mapC := [7] } [0, 1, 0, 1, 0, 1] with ⟨hresult, -⟩ | ⟨⟨hend, -⟩, -⟩
  · exact absurd hresult (by decide)
  · exact absurd hend (by decide)

/-! ## The room for a level -/

/-- The size of `outputbuf`, as `malloc` gets it. -/
def Client.outputSize (t : Tunnel) : Nat := (Client.uncompressedsize t + 4) % 2 ^ 32

/-- The sizes are the ones of the level: the number of blocks is exact, the four bytes are there as well, and each
    block has its place in the output buffer and in the map of `after`. -/
structure Client.Fits (t after : Tunnel) : Prop where
  exact : (Client.uncompressedsize t : Int) = t.volume
  noWrap : Client.outputSize t = Client.uncompressedsize t + 4
  outputbuf : Set.MapsTo (fun c => index t.lvlx.toNat t.lvlz.toNat c + 4)
    (grid t.lvlx.toNat t.lvly.toNat t.lvlz.toNat)
    (Set.Ico 4 (Client.outputSize t))
  map : Set.MapsTo (index t.lvlx.toNat t.lvlz.toNat) (grid t.lvlx.toNat t.lvly.toNat t.lvlz.toNat)
    (Set.Ico 0 after.mapAlloc)

/-- The sizes of a level that an `unsigned` can hold. -/
theorem Client.fits_inflated_iff (env : Env) (t : Tunnel) :
    Client.Fits t (Client.inflated env t) ↔ t.volume + 4 < 2 ^ 32 := by
  have hexact := Client.uncompressedsize_eq_iff t
  -- the four bytes of size are what an exact size may still lack room for
  constructor
  · intro h
    have hvolume := hexact.mp h.exact
    have hwrap := h.noWrap
    unfold Client.outputSize at hwrap
    have heq := h.exact
    omega
  · intro h
    have heq := hexact.mpr (by omega)
    have hwrap : Client.outputSize t = Client.uncompressedsize t + 4 := Nat.mod_eq_of_lt (by omega)
    have hplace := mapsTo_index t.lvlx.toNat t.lvly.toNat t.lvlz.toNat
    refine ⟨heq, hwrap, fun c hc => ?_, fun c hc => ?_⟩
    · obtain ⟨hpos, hlt⟩ := hplace hc
      have hlt' : index t.lvlx.toNat t.lvlz.toNat c < t.volume := hlt
      show 4 ≤ index t.lvlx.toNat t.lvlz.toNat c + 4 ∧ index t.lvlx.toNat t.lvlz.toNat c + 4 < Client.outputSize t
      omega
    · obtain ⟨hpos, hlt⟩ := hplace hc
      have hlt' : index t.lvlx.toNat t.lvlz.toNat c < t.volume := hlt
      have halloc : (Client.inflated env t).mapAlloc = Client.uncompressedsize t := rfl
      rw [halloc, Set.mem_Ico]
      omega

/-- **The buffers have room for the level**, or it is rejected, just if zlib says an error or the number of blocks and
    the four bytes fit into 32 bits. -/
theorem level_fits_iff (env : Env) (t : Tunnel) (input : Bytes) :
    Client.Rejected t ((Client.levelFinalize env).run input t) ∨
        Client.Fits (sized (pointIn env input) t) ((Client.levelFinalize env).run input t).state ↔
      Client.ZlibError env (sized (pointIn env input) t) ∨ (sized (pointIn env input) t).volume + 4 < 2 ^ 32 := by
  rw [Client.rejected_iff]
  refine or_congr_right' fun herror => ?_
  obtain ⟨-, hstate⟩ := run_levelFinalize_done env input herror
  rw [hstate]
  exact Client.fits_inflated_iff env _

/-- A level of 2048 by 2048 by 1024 blocks gets a map of no bytes. -/
theorem size_wraps : ¬ ∀ (env : Env) (t : Tunnel) (input : Bytes),
    Client.Rejected t ((Client.levelFinalize env).run input t) ∨
      Client.Fits (sized (pointIn env input) t) ((Client.levelFinalize env).run input t).state := by
  intro hall
  rcases hall {} {} [8, 0, 8, 0, 4, 0] with ⟨hresult, -⟩ | hfits
  · exact absurd hresult (by decide)
  · exact absurd hfits.exact (by decide)

end LavaTunnel
