import LavaTunnel.Correctness.Cuboid
import LavaTunnel.Correctness.Cancel

/-!
# `LavaTunnel.Correctness.Chunk` — a chunk is pasted as it was copied, if it fits

The copy writes the extents of its box and then its blocks, in the order of the nest. The paste reads the extents,
counts through a box of that size, and takes the blocks in the same order. Moving a box does not change the order
(`Box.cells_translate`), so the blocks come back where they belong. But the paste reads 9000 bytes and no more:
what it places from the 8995th cell on is whatever lies behind the buffer.
-/

namespace LavaTunnel

open Wire Scan

/-! ## The copy -/

/-- The box of a copy. -/
def Copy.box (c : Copy) : Box := boxBetween c.x1 c.y1 c.z1 c.x2 c.y2 c.z2

/-- What the copy reads. -/
def copyView (t : Tunnel) : Copy × (Int → UInt8) × UInt16 × UInt16 := (t.copy, t.map, t.lvlx, t.lvlz)

/-- The iteration that ends the nest of the copy. -/
def copyEnd (copyBuf : Bytes) : Iteration where
  next := .copyWrite copyBuf
  calls := [.tunnelMsg (ascii "&0[&4LavaTunnel&0] &fcopy: writing to file...")]

theorem copy_congr {t t₀ : Tunnel} (h : copyView t = copyView t₀) :
    t.copy = t₀.copy ∧ copyBounds t = copyBounds t₀ ∧ blockAt t = blockAt t₀ := by
  simp only [copyView, Prod.mk.injEq] at h
  obtain ⟨hc, hm, hx, hz⟩ := h
  refine ⟨hc, by simp only [copyBounds, hc], ?_⟩
  funext c
  simp only [blockAt, bOffset, calculateOffset, hm, hx, hz]

/-- **The copy is a nest** that collects blocks. -/
theorem copyNest (env : Env) (t₀ : Tunnel) :
    Nest env copyView (copyView t₀) (copyBounds t₀) .copyLoop (fun buf c => (buf ++ [blockAt t₀ c], [])) copyEnd where
  enter := by
    intro t buf l ht h
    obtain ⟨-, hbounds, hblock⟩ := copy_congr ht
    have hcell : t.map (calculateOffset t l.vx l.vy l.vz) = blockAt t₀ l.cell := by
      rw [← hblock]
      simp only [blockAt, Loops.cell, toShort_toInt, bOffset]
    simp only [builderIteration, copyIteration, hbounds, h, hcell, if_true, ite_self]
  leave := by
    intro t buf l l' ht h hl
    obtain ⟨-, hbounds, -⟩ := copy_congr ht
    simp only [builderIteration, copyIteration, hbounds, h, hl]
    rfl
  done := by
    intro t buf l ht h hl
    obtain ⟨-, hbounds, -⟩ := copy_congr ht
    simp only [builderIteration, copyIteration, hbounds, h, hl]
    rfl

theorem visits_copy (t : Tunnel) (buf : Bytes) (cells : List Cell) :
    visits (fun buf c => (buf ++ [blockAt t c], [])) buf cells = (buf ++ cells.map (blockAt t), []) := by
  induction cells generalizing buf with
  | nil => simp [visits]
  | cons c cs ih => simp [visits, ih]

/-- The chunk of a copy. -/
def chunkOf (t : Tunnel) : Bytes := copyHeader (copySorted t.copy) ++ t.copy.box.cells.map (blockAt t)

/-- The number of iterations of a copy: the start, the nest, and the writing. -/
def copyIterations (c : Copy) : Nat := c.box.stepsLeft c.box.entry + 2

section Copy

variable (env : Env) {t : Tunnel}

/-- A copy whose size is no negative number ends, with the chunk in its file. -/
theorem copy_run (hx : t.copy.x1.toNat < 32767 ∧ t.copy.x2.toNat < 32767)
    (hy : t.copy.y1.toNat < 32767 ∧ t.copy.y2.toNat < 32767) (hz : t.copy.z1.toNat < 32767 ∧ t.copy.z2.toNat < 32767)
    (hstart : t.copy.start = true) (hsize : ¬ copySize (copySorted t.copy) < 0) (fs : List (Tunnel → Tunnel))
    (hlen : fs.length = copyIterations t.copy) (hfs : ∀ f ∈ fs, Keeps copyView f) :
    (Building.run env fs ⟨.copy, t, []⟩).pc = .cuboid ∧
      (Building.run env fs ⟨.copy, t, []⟩).state.copy.start = false ∧
      (Building.run env fs ⟨.copy, t, []⟩).state.files (cstr t.copy.chunkName) =
        some (env.fill (copySize (copySorted t.copy)).toNat (chunkOf t)) := by
  have hentry : Loops.place ⟨.y, (ordered t.copy.x1 t.copy.x2).1.toInt16, (ordered t.copy.y1 t.copy.y2).1.toInt16,
      (ordered t.copy.z1 t.copy.z2).1.toInt16⟩ = t.copy.box.entry := place_ordered hx hy hz
  obtain ⟨f, gs, rfl⟩ := List.exists_cons_of_length_eq_add_one hlen
  obtain ⟨fs, g, rfl⟩ : ∃ fs g, gs = fs ++ [g] := by
    rcases List.eq_nil_or_concat' gs with rfl | h
    · exact absurd hlen (by simp [copyIterations])
    · exact h
  obtain ⟨hc, -, hblock⟩ := copy_congr (hfs f List.mem_cons_self t)
  let t₀ : Tunnel := { f t with copy := { copySorted t.copy with size := copySize (copySorted t.copy) } }
  have hb : (copyBounds t₀).Describes t.copy.box := describes_ordered hx hy hz
  -- the first iteration puts the corners in order
  have hstarted : Building.run env (f :: (fs ++ [g])) ⟨.copy, t, []⟩ = Building.run env (fs ++ [g])
      ⟨.copyLoop (copyHeader (copySorted t.copy)) ⟨.y, (ordered t.copy.x1 t.copy.x2).1.toInt16,
        (ordered t.copy.y1 t.copy.y2).1.toInt16, (ordered t.copy.z1 t.copy.z2).1.toInt16⟩, t₀,
        (copyStart (f t)).calls⟩ := by
    rw [run_cons, iteration_copy_start env (by rw [hc, hstart])]
    simp only [copyStart, hc, if_neg hsize, List.nil_append]
    rfl
  -- the nest collects the blocks
  obtain ⟨t', ht', hrun⟩ := (copyNest env t₀).run hb
    ⟨.y, (ordered t.copy.x1 t.copy.x2).1.toInt16, (ordered t.copy.y1 t.copy.y2).1.toInt16,
      (ordered t.copy.z1 t.copy.z2).1.toInt16⟩
    (by rw [hentry]; exact Box.within_entry _) (copyHeader (copySorted t.copy)) fs t₀ (copyStart (f t)).calls
    (by rw [hentry]; simpa [copyIterations] using hlen)
    (fun h hh => hfs h (List.mem_cons_of_mem f (List.mem_append_left [g] hh))) rfl
  rw [hentry, Box.remaining_entry, visits_copy] at hrun
  rw [hstarted, run_append, hrun]
  -- and the last iteration writes them
  obtain ⟨hc', -, -⟩ := copy_congr ((hfs g (by simp) t').trans ht')
  refine ⟨rfl, rfl, ?_⟩
  show Function.update (g t').files (cstr (g t').copy.chunkName)
    (some (env.fill (g t').copy.size.toNat _)) (cstr t.copy.chunkName) = _
  rw [hc']
  have hsame : blockAt t₀ = blockAt t := hblock
  rw [hsame]
  exact Function.update_self (cstr t.copy.chunkName) _ _

/-- A copy whose size is negative crashes. -/
theorem copy_crashes (hstart : t.copy.start = true) (hsize : copySize (copySorted t.copy) < 0)
    (fs : List (Tunnel → Tunnel)) (hlen : 0 < fs.length) (hfs : ∀ f ∈ fs, Keeps copyView f) :
    (Building.run env fs ⟨.copy, t, []⟩).pc = .crashed := by
  cases fs with
  | nil => exact absurd hlen (by simp)
  | cons f fs =>
      obtain ⟨hc, -, -⟩ := copy_congr (hfs f List.mem_cons_self t)
      have hit : builderIteration env (f t) .copy = copyStart (f t) :=
        iteration_copy_start env (by rw [hc, hstart])
      have hnext : (copyStart (f t)).next = .crashed := by
        unfold copyStart
        rw [hc]
        exact if_pos hsize
      rw [run_cons, hit]
      dsimp only
      rw [hnext]
      exact run_crashed env fs _ _

end Copy

/-! ## The paste -/

/-- What the paste reads. -/
def pasteView (t : Tunnel) : Paste × (Bytes → Option Bytes) := (t.paste, t.files)

/-- A call for a cell with its block, unless the block is air. -/
def pasteVisit (block : UInt8) (c : Cell) : List BuilderCall :=
  if block ≠ 0 then [.setBlock (toShort c.x) (toShort c.y) (toShort c.z) block true] else []

/-- The iteration that ends the paste. -/
def pasteEnd (hidden : Bool) : Iteration where
  next := .copy
  update := fun t => unhide hidden (pasteStop t)

/-- What the others have left alone of what the paste reads. -/
theorem paste_congr {p : Pasting} {k : Nat} {t t₀ : Tunnel} (h : pasteView t = pasteView t₀) :
    t.paste = t₀.paste ∧ pasteBounds t { p with bufLoop := k } = pasteBounds t₀ p := by
  have hpaste : t.paste = t₀.paste := congrArg Prod.fst h
  refine ⟨hpaste, ?_⟩
  simp only [pasteBounds, hpaste]

/-- **The paste is a nest** that takes the bytes of its buffer one after the other. -/
theorem pasteNest (env : Env) (p : Pasting) {t₀ : Tunnel} (hhalt : t₀.paste.halt = false) :
    Nest env pasteView (pasteView t₀) (pasteBounds t₀ p) (fun k l => .pasteLoop { p with bufLoop := k } l)
      (fun k c => (k + 1, pasteVisit (env.pasteByte p.pastebuf k) c)) (fun _ => pasteEnd p.hidden) where
  enter := by
    intro t k l ht h
    obtain ⟨hpaste, hbounds⟩ := paste_congr (p := p) (k := k) ht
    have hbody : pasteBody env { p with bufLoop := k } l = pasteVisit (env.pasteByte p.pastebuf k) l.cell := by
      simp only [pasteBody, pasteVisit, Loops.cell, toShort_toInt]
    by_cases hz : l.level = .z
    · simp only [builderIteration, pasteIteration, hbounds, h, hpaste, hhalt, hz, hbody, if_true]
      rfl
    · simp only [builderIteration, pasteIteration, hbounds, h, hz, if_true, if_false]
  leave := by
    intro t k l l' ht h hl
    obtain ⟨-, hbounds⟩ := paste_congr (p := p) (k := k) ht
    simp only [builderIteration, pasteIteration, hbounds, h, pasteLeave, hl]
    rfl
  done := by
    intro t k l ht h hl
    obtain ⟨-, hbounds⟩ := paste_congr (p := p) (k := k) ht
    simp only [builderIteration, pasteIteration, hbounds, h, pasteLeave, hl]
    rfl

/-- The call for a cell with its block. -/
def placing (c : Cell) (block : UInt8) : Option (Int16 × Int16 × Int16 × UInt8) :=
  if block ≠ 0 then some (toShort c.x, toShort c.y, toShort c.z, block) else none

/-- The calls that place the bytes from `k` on in some cells. -/
def pasteCalls (bytes : Nat → UInt8) (k : Nat) (cells : List Cell) : List (Int16 × Int16 × Int16 × UInt8) :=
  (cells.zipIdx k).filterMap (fun c => placing c.1 (bytes c.2))

theorem visits_paste (bytes : Nat → UInt8) (k : Nat) (cells : List Cell) :
    setBlocks (visits (fun k c => (k + 1, pasteVisit (bytes k) c)) k cells).2 = pasteCalls bytes k cells := by
  induction cells generalizing k with
  | nil => rfl
  | cons c cs ih =>
      show setBlocks (pasteVisit (bytes k) c ++ _) = _
      rw [setBlocks_append, ih]
      unfold pasteCalls
      rw [List.zipIdx_cons, List.filterMap_cons]
      unfold pasteVisit placing
      by_cases h : bytes k = 0
      · simp [h, setBlocks]
      · simp [h, setBlocks]

/-- An extent from a point stays where a `short` can count. -/
def Fits (near : UInt16) (extent : Int16) : Prop := 1 ≤ extent.toInt ∧ (near.toNat : Int) + extent.toInt ≤ 32767

/-- Corners in order are left in order. -/
theorem pasteCorners_of_fits {near : UInt16} {extent : Int16} (h : Fits near extent) :
    pasteCorners near extent = (near, toShort (near.toNat + extent.toInt - 1)) ∧
      near.toInt16.toInt = near.toNat ∧
      (toShort (near.toNat + extent.toInt - 1)).toInt = near.toNat + extent.toInt - 1 := by
  obtain ⟨hpos, hle⟩ := h
  have hfar : (toShort (near.toNat + extent.toInt - 1)).toInt = near.toNat + extent.toInt - 1 :=
    toInt_toShort (by omega) (by omega)
  refine ⟨?_, toInt_toInt16 (by omega), hfar⟩
  unfold pasteCorners
  dsimp only
  rw [if_neg (by rw [hfar]; omega)]

/-- The box of a paste: from its point, as far as the head of the buffer says. -/
def pasteBox (p : Paste) (pastebuf : Bytes) : Box where
  x1 := p.x.toNat
  y1 := p.y.toNat
  z1 := p.z.toNat
  x2 := p.x.toNat + (shortAt pastebuf 0).toInt - 1
  y2 := p.y.toNat + (shortAt pastebuf 2).toInt - 1
  z2 := p.z.toNat + (shortAt pastebuf 4).toInt - 1

/-- The number of iterations of a paste: the start and the nest. -/
def pasteIterations (p : Paste) (pastebuf : Bytes) : Nat :=
  (pasteBox p pastebuf).stepsLeft (pasteBox p pastebuf).entry + 1

/-- The buffer after the chunk has been read. -/
def pasteBuffer (env : Env) (chunk : Bytes) : Bytes := env.fill 9000 (chunk.take 9000)

/-- A paste places the bytes of its buffer, and ends. -/
theorem paste_run (env : Env) {t : Tunnel} {chunk : Bytes} (hstart : t.paste.start = true)
    (hhalt : t.paste.halt = false) (hfile : t.files (cstr t.paste.chunkName) = some chunk)
    (hx : Fits t.paste.x (shortAt (pasteBuffer env chunk) 0))
    (hy : Fits t.paste.y (shortAt (pasteBuffer env chunk) 2))
    (hz : Fits t.paste.z (shortAt (pasteBuffer env chunk) 4)) (fs : List (Tunnel → Tunnel))
    (hlen : fs.length = pasteIterations t.paste (pasteBuffer env chunk)) (hfs : ∀ f ∈ fs, Keeps pasteView f) :
    (Building.run env fs ⟨.paste, t, []⟩).pc = .copy ∧
      (Building.run env fs ⟨.paste, t, []⟩).state.paste.start = false ∧
      setBlocks (Building.run env fs ⟨.paste, t, []⟩).calls =
        pasteCalls (env.pasteByte (pasteBuffer env chunk)) 6 (pasteBox t.paste (pasteBuffer env chunk)).cells := by
  obtain ⟨hcx, hx1, hx2⟩ := pasteCorners_of_fits hx
  obtain ⟨hcy, hy1, hy2⟩ := pasteCorners_of_fits hy
  obtain ⟨hcz, hz1, hz2⟩ := pasteCorners_of_fits hz
  obtain ⟨f, fs, rfl⟩ := List.exists_cons_of_length_eq_add_one hlen
  have hview := hfs f List.mem_cons_self t
  have hpaste : (f t).paste = t.paste := congrArg Prod.fst hview
  have hfiles : (f t).files = t.files := congrArg Prod.snd hview
  let t₀ : Tunnel := { f t with hide := true, paste := t.paste }
  let p : Pasting := ⟨pasteBuffer env chunk, 6,
    toShort (t.paste.x.toNat + (shortAt (pasteBuffer env chunk) 0).toInt - 1),
    toShort (t.paste.y.toNat + (shortAt (pasteBuffer env chunk) 2).toInt - 1),
    toShort (t.paste.z.toNat + (shortAt (pasteBuffer env chunk) 4).toInt - 1), (f t).hide⟩
  let l : Loops := ⟨.y, t.paste.x.toInt16, t.paste.y.toInt16, t.paste.z.toInt16⟩
  have hb : (pasteBounds t₀ p).Describes (pasteBox t.paste (pasteBuffer env chunk)) :=
    ⟨hx1, hz1, hx2, hy2, hz2, by have := hx.2; have := hy.2; have := hz.2; simp only [pasteBox]; omega⟩
  have hentry : l.place = (pasteBox t.paste (pasteBuffer env chunk)).entry := by
    show Place.mk _ _ _ _ = Place.mk _ _ _ _
    rw [hx1, hy1, hz1]
    rfl
  -- the first iteration reads the chunk
  have hstarted : Building.run env (f :: fs) ⟨.paste, t, []⟩ = Building.run env fs ⟨.pasteLoop p l, t₀, []⟩ := by
    rw [run_cons, iteration_paste_start env (by rw [hpaste, hstart])]
    have hchunk : (f t).files (cstr (f t).paste.chunkName) = some chunk := by rw [hfiles, hpaste, hfile]
    simp only [pasteStart, hchunk]
    rw [show env.fill 9000 (chunk.take 9000) = pasteBuffer env chunk from rfl, hpaste, hcx, hcy, hcz]
    rfl
  have hnest : Nest env pasteView (pasteView t₀) _ _ _ _ := pasteNest env p hhalt
  obtain ⟨t', ht', hrun⟩ := hnest.run hb l (by rw [hentry]; exact Box.within_entry _) 6 fs t₀ []
    (by rw [hentry]; exact Nat.succ.inj hlen) (fun g hg => hfs g (List.mem_cons_of_mem f hg)) rfl
  rw [hentry, Box.remaining_entry] at hrun
  rw [hstarted, show Pc.pasteLoop p l = .pasteLoop { p with bufLoop := 6 } l from rfl, hrun]
  refine ⟨rfl, rfl, ?_⟩
  rw [List.nil_append, setBlocks_append, visits_paste]
  exact List.append_nil _

/-! ## What is read of what was written -/

/-- A byte of the buffer, when the file is `size` bytes of a chunk. -/
theorem getElem?_pasteBuffer (env : Env) (chunk : Bytes) {size i : Nat} (hi : i < 9000) :
    (pasteBuffer env (env.fill size chunk))[i]? =
      some (if i < size then chunk.getD i (env.junk 0 i) else env.junk 0 i) := by
  have hfill : ∀ (n : Nat) (bs : Bytes), i < n → (env.fill n bs)[i]? = some (bs.getD i (env.junk 0 i)) := by
    intro n bs hn
    by_cases hlt : i < bs.length
    · unfold Env.fill
      rw [List.getElem?_take_of_lt hn, List.getElem?_append_left hlt, List.getD_eq_getElem?_getD,
        List.getElem?_eq_getElem hlt]
      rfl
    · rw [getElem?_fill env (not_lt.mp hlt) hn, List.getD_eq_getElem?_getD, List.getElem?_eq_none (not_lt.mp hlt)]
      rfl
  unfold pasteBuffer
  rw [hfill 9000 _ hi, List.getD_eq_getElem?_getD, List.getElem?_take_of_lt hi]
  by_cases hsize : i < size
  · rw [if_pos hsize, hfill size chunk hsize]
    rfl
  · rw [if_neg hsize, List.getElem?_eq_none (by rw [length_fill]; omega)]
    rfl

/-- A `short` is its two bytes. -/
theorem shortAt_eq {buf : Bytes} {i : Nat} {lo hi : UInt8} (hlo : buf[i]? = some lo) (hhi : buf[i + 1]? = some hi) :
    shortAt buf i = (ofBytes [lo, hi]).toInt16 := by
  obtain ⟨hi1, rfl⟩ := List.getElem?_eq_some_iff.mp hlo
  obtain ⟨hi2, rfl⟩ := List.getElem?_eq_some_iff.mp hhi
  unfold shortAt
  rw [List.drop_eq_getElem_cons hi1, List.drop_eq_getElem_cons hi2]
  rfl

/-- The extents are read as they were written. -/
theorem shortAt_header {buf : Bytes} {c : Copy} (h : ∀ i < 6, buf[i]? = (copyHeader c)[i]?) :
    shortAt buf 0 = extent c.x1 c.x2 ∧ shortAt buf 2 = extent c.y1 c.y2 ∧ shortAt buf 4 = extent c.z1 c.z2 := by
  have hread : ∀ e : Int16, (ofBytes (bytesOf e.toUInt16)).toInt16 = e := by
    intro e
    rw [ofBytes_bytesOf]
    rfl
  refine ⟨?_, ?_, ?_⟩
  · exact (shortAt_eq (h 0 (by omega)) (h 1 (by omega))).trans (hread _)
  · exact (shortAt_eq (h 2 (by omega)) (h 3 (by omega))).trans (hread _)
  · exact (shortAt_eq (h 4 (by omega)) (h 5 (by omega))).trans (hread _)

/-- What a loop between two corners counts. -/
theorem toInt_extent {a b : UInt16} (hle : a.toNat ≤ b.toNat) (hb : b.toNat < 32767) :
    (extent a b).toInt = (b.toNat : Int) + 1 - a.toNat := toInt_toShort (by omega) (by omega)

/-- The corners of a box lie where `short`s count. -/
structure Copy.Short (c : Copy) : Prop where
  x : c.x1.toNat < 32767 ∧ c.x2.toNat < 32767
  y : c.y1.toNat < 32767 ∧ c.y2.toNat < 32767
  z : c.z1.toNat < 32767 ∧ c.z2.toNat < 32767

/-- The extents of a copy are those of its box. -/
theorem toInt_extents {c : Copy} (h : c.Short) :
    (extent (copySorted c).x1 (copySorted c).x2).toInt = c.box.x2 + 1 - c.box.x1 ∧
      (extent (copySorted c).y1 (copySorted c).y2).toInt = c.box.y2 + 1 - c.box.y1 ∧
      (extent (copySorted c).z1 (copySorted c).z2).toInt = c.box.z2 + 1 - c.box.z1 := by
  have haxis : ∀ a b : UInt16, a.toNat < 32767 ∧ b.toNat < 32767 →
      (extent (ordered a b).1 (ordered a b).2).toInt =
        ((max a.toNat b.toNat : Nat) : Int) + 1 - (min a.toNat b.toNat : Nat) := by
    intro a b hab
    have hfst := ordered_fst a b
    have hsnd := ordered_snd a b
    rw [toInt_extent (by omega) (by omega), hfst, hsnd]
  exact ⟨haxis _ _ h.x, haxis _ _ h.y, haxis _ _ h.z⟩

theorem int32_natCast {n : Nat} (h : n < 65536) : int32 n = n := int32_of_range (by omega) (by omega)

/-- The size of a chunk that fits the buffer. -/
theorem copySize_of_short {c : Copy} (h : c.Short) (hvol : c.box.cells.length ≤ 8994) :
    copySize (copySorted c) = c.box.cells.length + 6 := by
  obtain ⟨hx, hy, hz⟩ := toInt_extents h
  have hpos : ∀ a b : UInt16, 1 ≤ ((max a.toNat b.toNat : Nat) : Int) + 1 - (min a.toNat b.toNat : Nat) := by
    intro a b
    omega
  have hx1 : 1 ≤ c.box.x2 + 1 - c.box.x1 := hpos _ _
  have hy1 : 1 ≤ c.box.y2 + 1 - c.box.y1 := hpos _ _
  have hz1 : 1 ≤ c.box.z2 + 1 - c.box.z1 := hpos _ _
  have hcells := Box.length_cells c.box
  unfold copySize
  rw [hx, hy, hz]
  -- the sides as natural numbers
  obtain ⟨a, ha⟩ := Int.eq_ofNat_of_zero_le (show 0 ≤ c.box.x2 + 1 - c.box.x1 by omega)
  obtain ⟨b, hb⟩ := Int.eq_ofNat_of_zero_le (show 0 ≤ c.box.y2 + 1 - c.box.y1 by omega)
  obtain ⟨d, hd⟩ := Int.eq_ofNat_of_zero_le (show 0 ≤ c.box.z2 + 1 - c.box.z1 by omega)
  rw [ha, hb, hd, Int.toNat_natCast, Int.toNat_natCast, Int.toNat_natCast] at hcells
  rw [ha, hb, hd]
  have hd1 : 1 ≤ d := by omega
  have hab : a * b ≤ a * b * d := Nat.le_mul_of_pos_right _ hd1
  have hprod : b * (a * d) = a * b * d := by ring
  rw [hcells, hprod]
  have hle : a * b * d ≤ 8994 := by omega
  rw [← Int.natCast_mul, int32_natCast (by omega), ← Int.natCast_mul, int32_natCast (by omega)]
  exact int32_natCast (n := a * b * d + 6) (by omega)

/-! ## The round trip -/

/-- The offset that brings a box to a point. -/
def offsetTo (b : Box) (p : Point) : Cell := ⟨p.1.toNat - b.x1, p.2.1.toNat - b.y1, p.2.2.toNat - b.z1⟩

/-- The calls that place the blocks of a copy, but for air, moved by an offset. -/
def movedBlocks (t : Tunnel) (d : Cell) : List (Int16 × Int16 × Int16 × UInt8) :=
  (t.copy.box.cells.filter (fun c => blockAt t c != 0)).map
    (fun c => (toShort (c.x + d.x), toShort (c.y + d.y), toShort (c.z + d.z), blockAt t c))

/-- A copy is made, and from any later state with its file, in which nothing else waits and pastes are not halted, it
    is pasted by placing each of its blocks once at the point, and nothing else. The other threads may do what they
    like, except to what the builder reads. -/
def RoundTrips (env : Env) (t : Tunnel) (copying pasting : Request) (p : Point) : Prop :=
  let t' := copying.made env t
  let box := t'.copy.box.translate (offsetTo t'.copy.box p)
  ∀ fs : List (Tunnel → Tunnel), fs.length = copyIterations t'.copy → (∀ f ∈ fs, Keeps copyView f) →
    let b := Building.run env fs ⟨.copy, t', []⟩
    b.pc = .cuboid ∧ b.state.copy.start = false ∧
      ∀ s : Tunnel, s.files = b.state.files → Unplaced s → s.paste.halt = false →
        ∀ gs : List (Tunnel → Tunnel), gs.length = box.stepsLeft box.entry + 1 → (∀ g ∈ gs, Keeps pasteView g) →
          let b' := Building.run env gs ⟨.paste, pasting.made env s, []⟩
          b'.pc = .copy ∧ b'.state.paste.start = false ∧
            (setBlocks b'.calls).Perm (movedBlocks t' (offsetTo t'.copy.box p))

/-- The box between two clicks. -/
def clickBox (p q : Click) : Box :=
  boxBetween (clickPoint p).1 (clickPoint p).2.1 (clickPoint p).2.2 (clickPoint q).1 (clickPoint q).2.1
    (clickPoint q).2.2

/-- A box inside the level. -/
def Tunnel.Encloses (t : Tunnel) (b : Box) : Prop :=
  b.x2 < t.lvlx.toNat ∧ b.y2 < t.lvly.toNat ∧ b.z2 < t.lvlz.toNat

instance (t : Tunnel) (b : Box) : Decidable (t.Encloses b) := by
  unfold Tunnel.Encloses
  exact inferInstance

/-- The bytes of a chunk behind its head are the blocks, in order. -/
theorem getElem?_chunkOf (t : Tunnel) (i : Nat) :
    (i < 6 → (chunkOf t)[i]? = (copyHeader (copySorted t.copy))[i]?) ∧
      (chunkOf t)[6 + i]? = (t.copy.box.cells[i]?).map (blockAt t) := by
  have hhead : (copyHeader (copySorted t.copy)).length = 6 := rfl
  unfold chunkOf
  constructor
  · intro hi
    exact List.getElem?_append_left (by omega)
  · rw [List.getElem?_append_right (by omega), hhead, Nat.add_sub_cancel_left, List.getElem?_map]

/-- **What is pasted is what was copied**, when the bytes are the blocks. -/
theorem pasteCalls_eq {bytes : Nat → UInt8} {block : Cell → UInt8} (d : Cell) {cells : List Cell} {k : Nat}
    (h : ∀ i c, cells[i]? = some c → bytes (k + i) = block c) :
    pasteCalls bytes k (cells.map d.translate) = (cells.filter (fun c => block c != 0)).map
      (fun c => (toShort (c.x + d.x), toShort (c.y + d.y), toShort (c.z + d.z), block c)) := by
  induction cells generalizing k with
  | nil => rfl
  | cons c cs ih =>
      have hfirst : bytes k = block c := h 0 c rfl
      have hrest := ih (k := k + 1) (by
        intro i c' hc'
        rw [Nat.add_assoc, Nat.add_comm 1 i]
        exact h (i + 1) c' hc')
      unfold pasteCalls at hrest ⊢
      rw [List.map_cons, List.zipIdx_cons, List.filterMap_cons, hrest]
      unfold placing
      by_cases h0 : block c = 0
      · simp [hfirst, h0]
      · simp [hfirst, h0, Cell.translate]

/-- A byte that is not air is placed. -/
theorem mem_pasteCalls {bytes : Nat → UInt8} {cells : List Cell} {k i : Nat} {c : Cell} (hc : cells[i]? = some c)
    (hbyte : bytes (k + i) ≠ 0) :
    (toShort c.x, toShort c.y, toShort c.z, bytes (k + i)) ∈ pasteCalls bytes k cells := by
  unfold pasteCalls
  rw [List.mem_filterMap]
  refine ⟨(c, k + i), List.mk_mem_zipIdx_iff_le_and_getElem?_sub.mpr ⟨Nat.le_add_right k i, ?_⟩, if_pos hbyte⟩
  rw [Nat.add_sub_cancel_left]
  exact hc

/-- The state a paste request leaves, when the chunk of `t` has been written to its file. -/
structure PasteMade (env : Env) (t s : Tunnel) (size : Nat) (p : Point) : Prop where
  start : s.paste.start = true
  halt : s.paste.halt = false
  point : (s.paste.x, s.paste.y, s.paste.z) = p
  file : s.files (cstr s.paste.chunkName) = some (env.fill size (chunkOf t))

section Paste

variable {env : Env} {t s : Tunnel} {size : Nat} {p : Point}

/-- The buffer of the paste. -/
abbrev readBack (env : Env) (t : Tunnel) (size : Nat) : Bytes := pasteBuffer env (env.fill size (chunkOf t))

/-- The head of the chunk is read, if it was written or happens to be in the buffer. -/
theorem getElem?_readBack_head (hhead : ∀ i < 6, i < size ∨ (copyHeader (copySorted t.copy))[i]? =
    some (env.junk 0 i)) :
    ∀ i < 6, (readBack env t size)[i]? = (copyHeader (copySorted t.copy))[i]? := by
  intro i hi
  have hlt : i < (copyHeader (copySorted t.copy)).length := hi
  rw [getElem?_pasteBuffer env _ (by omega), List.getD_eq_getElem?_getD, (getElem?_chunkOf t i).1 hi,
    List.getElem?_eq_getElem hlt]
  rcases hhead i hi with hsize | hjunk
  · rw [if_pos hsize]
    rfl
  · rw [List.getElem?_eq_getElem hlt] at hjunk
    have hbyte : (copyHeader (copySorted t.copy))[i] = env.junk 0 i := Option.some.inj hjunk
    rw [Option.getD_some, hbyte, ite_self]

/-- A paste of a chunk whose head is read goes through the box of the copy, moved to its point. -/
theorem pasted (hs : PasteMade env t s size p) (hshort : t.copy.Short)
    (hhead : ∀ i < 6, i < size ∨ (copyHeader (copySorted t.copy))[i]? = some (env.junk 0 i))
    (hfits : (t.copy.box.translate (offsetTo t.copy.box p)).x2 < 32767 ∧
      (t.copy.box.translate (offsetTo t.copy.box p)).y2 < 32767 ∧
      (t.copy.box.translate (offsetTo t.copy.box p)).z2 < 32767)
    (gs : List (Tunnel → Tunnel)) (hlen : gs.length = (t.copy.box.translate (offsetTo t.copy.box p)).stepsLeft
      (t.copy.box.translate (offsetTo t.copy.box p)).entry + 1) (hgs : ∀ g ∈ gs, Keeps pasteView g) :
    (Building.run env gs ⟨.paste, s, []⟩).pc = .copy ∧
      (Building.run env gs ⟨.paste, s, []⟩).state.paste.start = false ∧
      setBlocks (Building.run env gs ⟨.paste, s, []⟩).calls = pasteCalls (env.pasteByte (readBack env t size)) 6
        (t.copy.box.cells.map (offsetTo t.copy.box p).translate) := by
  obtain ⟨hstart, hhalt, rfl, hfile⟩ := hs
  obtain ⟨hsx, hsy, hsz⟩ := shortAt_header (getElem?_readBack_head hhead)
  obtain ⟨hex, hey, hez⟩ := toInt_extents hshort
  have hordered : t.copy.box.x1 ≤ t.copy.box.x2 ∧ t.copy.box.y1 ≤ t.copy.box.y2 ∧ t.copy.box.z1 ≤ t.copy.box.z2 := by
    simp only [Copy.box, boxBetween]
    omega
  simp only [Box.translate, offsetTo] at hfits
  -- the extents that are read back put the box where the offset puts it
  have hbox : pasteBox s.paste (readBack env t size) =
      t.copy.box.translate (offsetTo t.copy.box (s.paste.x, s.paste.y, s.paste.z)) := by
    simp only [pasteBox, hsx, hsy, hsz, hex, hey, hez, Box.translate, offsetTo, Box.mk.injEq]
    omega
  obtain ⟨hpc, hdone, hcalls⟩ := paste_run env hstart hhalt hfile
    (by unfold Fits; rw [hsx, hex]; omega) (by unfold Fits; rw [hsy, hey]; omega)
    (by unfold Fits; rw [hsz, hez]; omega) gs (by unfold pasteIterations; rw [hbox]; exact hlen) hgs
  rw [hbox, Box.cells_translate] at hcalls
  exact ⟨hpc, hdone, hcalls⟩

end Paste

/-- The only block that is to be placed in a cell is the one that was copied from there. -/
theorem block_of_mem_movedBlocks {t : Tunnel} {p : Point} {c : Cell} {w : UInt8}
    (hfits : (t.copy.box.translate (offsetTo t.copy.box p)).x2 < 32767 ∧
      (t.copy.box.translate (offsetTo t.copy.box p)).y2 < 32767 ∧
      (t.copy.box.translate (offsetTo t.copy.box p)).z2 < 32767) (hc : c ∈ t.copy.box.cells)
    (hmem : (toShort ((offsetTo t.copy.box p).translate c).x, toShort ((offsetTo t.copy.box p).translate c).y,
      toShort ((offsetTo t.copy.box p).translate c).z, w) ∈ movedBlocks t (offsetTo t.copy.box p)) :
    w = blockAt t c := by
  obtain ⟨c', hc', heq⟩ := List.mem_map.mp hmem
  have hc' := Box.mem_cells.mp (List.mem_filter.mp hc').1
  have hc := Box.mem_cells.mp hc
  obtain ⟨⟨hx1, hx2⟩, ⟨hy1, hy2⟩, ⟨hz1, hz2⟩⟩ := hc
  obtain ⟨⟨hx1', hx2'⟩, ⟨hy1', hy2'⟩, ⟨hz1', hz2'⟩⟩ := hc'
  simp only [Box.translate, offsetTo] at hfits
  simp only [Cell.translate, offsetTo, Prod.mk.injEq] at heq
  obtain ⟨hx, hy, hz, hw⟩ := heq
  -- no coordinate wraps
  have hback : ∀ {a b : Int}, -32768 ≤ a ∧ a < 32768 → -32768 ≤ b ∧ b < 32768 → toShort a = toShort b → a = b := by
    intro a b ha hb h
    rw [← toInt_toShort ha.1 ha.2, h, toInt_toShort hb.1 hb.2]
  have hx := hback (by omega) (by omega) hx
  have hy := hback (by omega) (by omega) hy
  have hz := hback (by omega) (by omega) hz
  have hsame : c' = c := Cell.ext (by omega) (by omega) (by omega)
  rw [← hw, hsame]

/-! ## The requests -/

section Requests

variable {t : Tunnel} {text name : Bytes}

/-- The state a copy with its two clicks leaves. -/
def copyClicked (name : Bytes) (p q : Click) (t : Tunnel) : Tunnel :=
  copySecond (clickPoint q) (copyFirst (clickPoint p) (copyRequested (some name) t))

theorem made_copyClicked (env : Env) (h : Unplaced t) (htext : arg0 text = some (ascii "copy"))
    (hname : arg1 text = some name) (p q : Click) :
    (Request.copy text htext p q).made env t = copyClicked name p q t := by
  rw [made_copy env h, hname, if_neg (Option.some_ne_none name)]
  rfl

/-- Clicks inside the level are corners that a `short` can count. -/
theorem short_copyClicked (hsides : t.ShortSides) {p q : Click}
    (hp : t.Inside (clickPoint p).1 (clickPoint p).2.1 (clickPoint p).2.2)
    (hq : t.Inside (clickPoint q).1 (clickPoint q).2.1 (clickPoint q).2.2) : (copyClicked name p q t).copy.Short := by
  obtain ⟨hsx, hsy, hsz⟩ := hsides
  obtain ⟨hpx, hpy, hpz⟩ := hp
  obtain ⟨hqx, hqy, hqz⟩ := hq
  exact ⟨⟨by show (clickPoint p).1.toNat < 32767; omega, by show (clickPoint q).1.toNat < 32767; omega⟩,
    ⟨by show (clickPoint p).2.1.toNat < 32767; omega, by show (clickPoint q).2.1.toNat < 32767; omega⟩,
    ⟨by show (clickPoint p).2.2.toNat < 32767; omega, by show (clickPoint q).2.2.toNat < 32767; omega⟩⟩

/-- A paste with its click, when the chunk is in its file. -/
theorem pasteMade {env : Env} {s : Tunnel} {size : Nat} (h : Unplaced s) (htext : arg0 text = some (ascii "paste"))
    (hname : arg1 text = some name) (hhalt : s.paste.halt = false)
    (hfile : s.files (cstr (chunkFile name)) = some (env.fill size (chunkOf t))) (r : Click) :
    PasteMade env t ((Request.paste text htext r).made env s) size (clickPoint r) := by
  rw [made_paste env h, hname, if_neg (Option.some_ne_none name)]
  exact ⟨rfl, hhalt, rfl, hfile⟩

end Requests

section Result

variable {t : Tunnel} {text text' name : Bytes} {p q r : Click}

/-- **A small chunk comes back.** -/
theorem roundTrips_of_short (env : Env) (h : Unplaced t) (hshort : (copyClicked name p q t).copy.Short)
    (htext : arg0 text = some (ascii "copy")) (hname : arg1 text = some name)
    (htext' : arg0 text' = some (ascii "paste")) (hname' : arg1 text' = some name)
    (hfits : ((clickBox p q).translate (offsetTo (clickBox p q) (clickPoint r))).x2 < 32767 ∧
      ((clickBox p q).translate (offsetTo (clickBox p q) (clickPoint r))).y2 < 32767 ∧
      ((clickBox p q).translate (offsetTo (clickBox p q) (clickPoint r))).z2 < 32767)
    (hvol : (clickBox p q).cells.length ≤ 8994) :
    RoundTrips env t (.copy text htext p q) (.paste text' htext' r) (clickPoint r) := by
  unfold RoundTrips
  rw [made_copyClicked env h htext hname]
  intro t' box fs hlen hfs b
  have hsize : copySize (copySorted t'.copy) = t'.copy.box.cells.length + 6 := copySize_of_short hshort hvol
  obtain ⟨hpc, hstart, hfile⟩ := copy_run env (t := t') hshort.x hshort.y hshort.z rfl
    (by rw [hsize]; omega) fs hlen hfs
  rw [show (copySize (copySorted t'.copy)).toNat = t'.copy.box.cells.length + 6 by rw [hsize]; omega] at hfile
  refine ⟨hpc, hstart, fun s hfiles hs hhalt gs hgs hkeep => ?_⟩
  have hmade := pasteMade (t := t') hs htext' hname' hhalt ((congrFun hfiles _).trans hfile) r
  obtain ⟨hpc', hstart', hcalls⟩ := pasted hmade hshort (fun i hi => Or.inl (by omega)) hfits gs hgs hkeep
  refine ⟨hpc', hstart', List.Perm.of_eq ?_⟩
  rw [hcalls]
  refine pasteCalls_eq _ fun i c hc => ?_
  -- the bytes of the buffer are the blocks
  have hi : i < t'.copy.box.cells.length := (List.getElem?_eq_some_iff.mp hc).1
  have hi' : i < 8994 := lt_of_lt_of_le hi hvol
  unfold Env.pasteByte
  rw [if_pos (by omega), List.getD_eq_getElem?_getD, getElem?_pasteBuffer env _ (by omega), if_pos (by omega),
    List.getD_eq_getElem?_getD, (getElem?_chunkOf t' i).2, hc]
  rfl

/-- **A block behind the buffer** is not the one that was copied. -/
theorem not_roundTrips_of_stack {env : Env} (h : Unplaced t) (hshort : (copyClicked name p q t).copy.Short)
    (htext : arg0 text = some (ascii "copy")) (hname : arg1 text = some name)
    (htext' : arg0 text' = some (ascii "paste")) (hname' : arg1 text' = some name)
    (hfits : ((clickBox p q).translate (offsetTo (clickBox p q) (clickPoint r))).x2 < 32767 ∧
      ((clickBox p q).translate (offsetTo (clickBox p q) (clickPoint r))).y2 < 32767 ∧
      ((clickBox p q).translate (offsetTo (clickBox p q) (clickPoint r))).z2 < 32767)
    (hhead : ∀ i < 6, i < (copySize (copySorted (copyClicked name p q t).copy)).toNat ∨
      (copyHeader (copySorted (copyClicked name p q t).copy))[i]? = some (env.junk 0 i))
    {c : Cell} (hc : (clickBox p q).cells[8994]? = some c) (h0 : env.stack 0 ≠ 0)
    (hstack : env.stack 0 ≠ blockAt (copyClicked name p q t) c) :
    ¬ RoundTrips env t (.copy text htext p q) (.paste text' htext' r) (clickPoint r) := by
  let t' := copyClicked name p q t
  intro htrip
  unfold RoundTrips at htrip
  rw [made_copyClicked env h htext hname] at htrip
  -- nobody else is at work
  have hkeep : ∀ {α : Type} (g : Tunnel → α) (n : Nat), ∀ f ∈ List.replicate n (id : Tunnel → Tunnel), Keeps g f := by
    intro α g n f hf
    rw [(List.mem_replicate.mp hf).2]
    exact keeps_id g
  obtain ⟨hpc, -, htrip⟩ := htrip (List.replicate (copyIterations t'.copy) id) List.length_replicate (hkeep _ _)
  -- the copy has not crashed
  have hsize : ¬ copySize (copySorted t'.copy) < 0 := by
    intro hneg
    have hcrash := copy_crashes env (t := t') rfl hneg (List.replicate (copyIterations t'.copy) id)
      (by rw [List.length_replicate]; exact Nat.succ_pos _) (hkeep _ _)
    exact absurd (hpc.symm.trans hcrash) (by simp)
  obtain ⟨-, -, hfile⟩ := copy_run env (t := t') hshort.x hshort.y hshort.z rfl hsize _ List.length_replicate
    (hkeep _ _)
  generalize (Building.run env (List.replicate (copyIterations t'.copy) id) ⟨.copy, t', []⟩).state = b at htrip hfile
  -- a state with its file, and nothing else
  have hs : Unplaced ({ files := b.files } : Tunnel) := ⟨rfl, fun o => by cases o <;> rfl⟩
  have hmade := pasteMade (t := t') hs htext' hname' rfl hfile r
  obtain ⟨-, -, hcalls⟩ := pasted hmade hshort hhead hfits _ List.length_replicate (hkeep _ _)
  obtain ⟨-, -, hperm⟩ := htrip { files := b.files } rfl hs rfl _ List.length_replicate (hkeep _ _)
  rw [hcalls] at hperm
  have hbyte : env.pasteByte (readBack env t' (copySize (copySorted t'.copy)).toNat) (6 + 8994) = env.stack 0 :=
    if_neg (by omega)
  have hcell : (t'.copy.box.cells.map (offsetTo t'.copy.box (clickPoint r)).translate)[8994]? =
      some ((offsetTo t'.copy.box (clickPoint r)).translate c) := by
    rw [List.getElem?_map]
    exact congrArg _ hc
  have hmem := hperm.mem_iff.mp (mem_pasteCalls hcell (by rw [hbyte]; exact h0))
  rw [hbyte] at hmem
  exact hstack (block_of_mem_movedBlocks hfits (List.mem_of_getElem? hc) hmem)

end Result

/-- **The round trip.** Whatever is behind the buffer, a copy comes back as it was just if its box has at most 8994
    cells. -/
theorem roundTrips_iff (t : Tunnel) (h : Unplaced t) (hsides : t.ShortSides) (text text' name : Bytes)
    (htext : arg0 text = some (ascii "copy")) (hname : arg1 text = some name)
    (htext' : arg0 text' = some (ascii "paste")) (hname' : arg1 text' = some name) (p q r : Click)
    (hp : t.Inside (clickPoint p).1 (clickPoint p).2.1 (clickPoint p).2.2)
    (hq : t.Inside (clickPoint q).1 (clickPoint q).2.1 (clickPoint q).2.2)
    (hr : t.Encloses ((clickBox p q).translate (offsetTo (clickBox p q) (clickPoint r)))) :
    (∀ env, RoundTrips env t (.copy text htext p q) (.paste text' htext' r) (clickPoint r)) ↔
      (clickBox p q).cells.length ≤ 8994 := by
  have hshort : (copyClicked name p q t).copy.Short := short_copyClicked hsides hp hq
  obtain ⟨hsx, hsy, hsz⟩ := hsides
  obtain ⟨hrx, hry, hrz⟩ := hr
  have hfits : ((clickBox p q).translate (offsetTo (clickBox p q) (clickPoint r))).x2 < 32767 ∧
      ((clickBox p q).translate (offsetTo (clickBox p q) (clickPoint r))).y2 < 32767 ∧
      ((clickBox p q).translate (offsetTo (clickBox p q) (clickPoint r))).z2 < 32767 := by omega
  constructor
  · intro htrips
    by_contra hvol
    -- the head of the chunk is in the buffer anyway, and a wrong block behind it
    obtain ⟨c, hc⟩ : ∃ c, (clickBox p q).cells[8994]? = some c := ⟨_, List.getElem?_eq_getElem (not_le.mp hvol)⟩
    obtain ⟨w, hw0, hwc⟩ : ∃ w : UInt8, w ≠ 0 ∧ w ≠ blockAt (copyClicked name p q t) c := by
      by_cases h1 : blockAt (copyClicked name p q t) c = 1
      · exact ⟨2, by decide, by rw [h1]; decide⟩
      · exact ⟨1, by decide, fun h => h1 h.symm⟩
    let head := copyHeader (copySorted (copyClicked name p q t).copy)
    have hhead : ∀ i < 6, head[i]? = some (head.getD i 0) := by
      intro i hi
      have hlt : i < head.length := hi
      rw [List.getD_eq_getElem?_getD, List.getElem?_eq_getElem hlt]
      rfl
    let env : Env := { junk := fun _ i => head.getD i 0, stack := fun _ => w }
    have hnot : ¬ RoundTrips env t (.copy text htext p q) (.paste text' htext' r) (clickPoint r) :=
      not_roundTrips_of_stack h hshort htext hname htext' hname' hfits (fun i hi => Or.inr (hhead i hi)) hc hw0 hwc
    exact hnot (htrips env)
  · exact fun hvol env => roundTrips_of_short env h hshort htext hname htext' hname' hfits hvol

/-- A click. -/
def click (x y z : UInt8) : Click := ⟨[0, x, 0, y, 0, z, 1, 1], rfl⟩

/-- Four blocks, from two corners in any order. -/
theorem roundTrips_iff_square :
    (∀ env, RoundTrips env { lvlx := 4, lvly := 4, lvlz := 4 }
      (.copy (ascii "copy a") (by decide) (click 2 1 1) (click 1 1 2))
        (.paste (ascii "paste a") (by decide) (click 0 0 0)) (clickPoint (click 0 0 0))) ↔
      (clickBox (click 2 1 1) (click 1 1 2)).cells.length ≤ 8994 :=
  roundTrips_iff { lvlx := 4, lvly := 4, lvlz := 4 } ⟨rfl, fun o => by cases o <;> rfl⟩ (by decide) (ascii "copy a")
    (ascii "paste a") (ascii "a") (by decide) (by decide) (by decide) (by decide) (click 2 1 1) (click 1 1 2)
    (click 0 0 0)
    (by decide) (by decide) (by decide)

/-- A field of 100 by 100 cells of air, pasted where it was, with a block 7 on the stack. -/
theorem field_does_not_return :
    ¬ RoundTrips { stack := fun _ => 7 } { lvlx := 100, lvly := 1, lvlz := 100 }
      (.copy (ascii "copy a") (by decide) (click 0 0 0) (click 99 0 99))
      (.paste (ascii "paste a") (by decide) (click 0 0 0)) (clickPoint (click 0 0 0)) := by
  have hvol : 8994 < (clickBox (click 0 0 0) (click 99 0 99)).cells.length := by
    rw [Box.length_cells]
    decide
  have hinside : ∀ c : Cell, blockAt (copyClicked (ascii "a") (click 0 0 0) (click 99 0 99)
      { lvlx := 100, lvly := 1, lvlz := 100 }) c = 0 := fun _ => rfl
  have hshort : (copyClicked (ascii "a") (click 0 0 0) (click 99 0 99)
      { lvlx := 100, lvly := 1, lvlz := 100 }).copy.Short := short_copyClicked (by decide) (by decide) (by decide)
  refine not_roundTrips_of_stack ⟨rfl, fun o => by cases o <;> rfl⟩ hshort (by decide) (by decide)
    (by decide) (by decide) (by decide) (fun i hi => Or.inl ?_) (List.getElem?_eq_getElem hvol) (by decide) ?_
  · exact lt_of_lt_of_le hi (by decide)
  · rw [hinside]
    decide

end LavaTunnel
