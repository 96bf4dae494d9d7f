import LavaTunnel.Correctness.Access

/-!
# `LavaTunnel.Correctness.MapAccess` — which bytes of the map are accessed

`mapAccesses` are the indices at which a turn reads or writes `map`: where a block is set, where a click is taken
back, where the innermost loops of the copy and the cuboid stand, and the first 10000 for `dump`. A level that
arrives whole is written to the new allocation. `confined_mapRound` says that nothing is missing: a turn neither
changes nor depends on any other byte.
-/

namespace LavaTunnel

open Wire Wire.Prog Scan

/-! ## The accesses -/

/-- The coordinates at the head of a payload. -/
def pointIn (env : Env) (payload : Bytes) : Point :=
  (host (env.fill 2 (payload.take 2)), host ((env.var 1).fill 2 ((payload.drop 2).take 2)),
    host ((env.var 2).fill 2 (((payload.drop 2).drop 2).take 2)))

/-- The coordinates in a packet that arrives. -/
def arrivingPoint (env : Env) (input : Bytes) : Point := pointIn env (input.drop 1)

/-- The state with the size of a level. -/
def sized (p : Point) (t : Tunnel) : Tunnel := { t with lvlx := p.1, lvly := p.2.1, lvlz := p.2.2 }

/-- The state with the size of a level that arrives. -/
def arrivingLevel (env : Env) (input : Bytes) (t : Tunnel) : Tunnel := sized (arrivingPoint env input) t

/-- Where a block is looked up. -/
def pointOffset (t : Tunnel) (p : Point) : Int := calculateOffset t p.1.toInt16 p.2.1.toInt16 p.2.2.toInt16

/-- `dump` shows the first 10000 bytes of the map. -/
def dumped (command : Bytes) : List Int := if command = ascii "dump" then (List.range 10000).map Int.ofNat else []

/-- The innermost body of a nest. -/
def nestAccesses (t : Tunnel) (b : Bounds) (l : Loops) : List Int :=
  if l.inside b = true ∧ l.level = .z then [calculateOffset t l.vx l.vy l.vz] else []

/-- The indices at which a turn reads or writes `map`, but for a level that arrives whole. -/
def mapAccesses (env : Env) (t : Tunnel) (input : Bytes) : Locals → List Int
  | .main => if byte (input.take 64) = 39 then dumped (cstr ((input.take 64).drop 1)) else []
  | .tunnelServer _ =>
      if byte input = 0x05 then if t.zPlace then [pointOffset t (arrivingPoint env input)] else []
      else if byte input = 0x0d ∧ Server.isCommand env (arrivingText env input) = true then
        dumped (arrivingCommand env input)
      else []
  | .mcConnect _ => if byte input = 0x06 then [pointOffset t (arrivingPoint env input)] else []
  | .builder (.copyLoop _ l) => nestAccesses t (copyBounds t) l
  | .builder (.cuboidLoop _ l) => if t.cuboid.halt then [] else nestAccesses t (cuboidBounds t) l
  | .builder _ => []
  | .connecting => []

/-- The end of a level arrives. -/
def LoadsLevel (who : ThreadId) (input : Bytes) : Locals → Prop
  | .mcConnect _ => who = .mcConnect ∧ byte input = 0x04
  | _ => False

/-! ## What is read from the map -/

section Rounds

variable {S : Region} (env : Env) {i : Bytes} {t : Tunnel}

theorem Confined.then {β : Type} {c : Code Unit} {d : Code β} {t₁ : Tunnel} {out : List (Socket × Bytes)}
    (hc : Shielded S c) (hrun : c.Takes [] t (some ()) t₁ out) (hd : Confined S d i t₁) :
    Confined S (do c; d) i t := by
  refine Confined.bind hc.confined fun _ _ => ?_
  rw [show c.run i t = ⟨some (), i, t₁, out⟩ from hrun i]
  exact hd

theorem confined_update {f : Tunnel → Tunnel}
    (hbeyond : ∀ t', t'.within S = t.within S → (f t').beyond S = t'.beyond S)
    (hwithin : ∀ t', t'.within S = t.within S → (f t').within S = (f t).within S) : Confined S (update f) i t :=
  fun t' ht' => ⟨hbeyond t' ht', ⟨rfl, rfl, rfl, (hwithin t' ht').symm⟩, rfl⟩

theorem map_congr {t' : Tunnel} (h : t'.within S = t.within S) {j : Int} (hj : S.map j = true) :
    t'.map j = t.map j := by
  rw [← map_within hj t', h, map_within hj]

/-- What does not look at the memory is the same for two states that differ in nothing else. -/
theorem congr_of_within {α : Type} {f : Tunnel → α} (hf : ∀ t, f (t.within S) = f t) {t' : Tunnel}
    (h : t'.within S = t.within S) : f t' = f t := by
  rw [← hf t', h, hf]

/-- A block that is put back. -/
theorem confined_revert {x y z : Bytes} (h : S.map (pointOffset t (host x, host y, host z)) = true) :
    Confined S (Server.revert x y z) i t := by
  refine Confined.getState_bind (fun t' ht' => ?_) (Guarded.confined (guarded_packet _ _))
  have hoffset : pointOffset t' (host x, host y, host z) = pointOffset t (host x, host y, host z) :=
    congr_of_within (f := fun t => pointOffset t (host x, host y, host z)) (fun _ => rfl) ht'
  have hblock : t'.map (pointOffset t' (host x, host y, host z)) =
      t.map (pointOffset t (host x, host y, host z)) := by
    rw [hoffset, map_congr ht' h]
  exact congrArg (tunnelSetBlock _ _ _) hblock

theorem level_pointed (p : Point) (blocktype : UInt8) (t : Tunnel) : (pointed p blocktype t).level = t.level := by
  have hcuboid : (cuboidPointed p blocktype t).level = t.level := by
    unfold cuboidPointed
    split_ifs <;> rfl
  have hpaste : ∀ s : Tunnel, (pastePointed p s).level = s.level := by
    intro s
    unfold pastePointed
    split_ifs <;> rfl
  have hcopy : ∀ s : Tunnel, (copyPointed p s).level = s.level := by
    intro s
    unfold copyPointed
    split_ifs <;> rfl
  unfold pointed
  rw [hcopy, hpaste, hcuboid]

/-- The offset of a point is that of the level. -/
theorem pointOffset_congr {t' : Tunnel} (h : t'.level = t.level) (p : Point) :
    pointOffset t' p = pointOffset t p := by
  have hx : t'.lvlx = t.lvlx := congrArg (fun level => level.1) h
  have hz : t'.lvlz = t.lvlz := congrArg (fun level => level.2.2.1) h
  unfold pointOffset calculateOffset
  rw [hx, hz]

/-- A click that sets a point. -/
theorem confined_point {x y z : Bytes} {blocktype : UInt8}
    (h : S.map (pointOffset t (host x, host y, host z)) = true) : Confined S (Server.point x y z blocktype) i t := by
  obtain ⟨out₁, h₁⟩ := takes_cuboidPoint (host x) (host y) (host z) blocktype t
  obtain ⟨out₂, h₂⟩ := takes_pastePoint (host x) (host y) (host z)
    (cuboidPointed (host x, host y, host z) blocktype t)
  obtain ⟨out₃, h₃⟩ := takes_copyPoint (host x) (host y) (host z)
    (pastePointed (host x, host y, host z) (cuboidPointed (host x, host y, host z) blocktype t))
  obtain ⟨out₄, h₄⟩ := takes_revert (pointed (host x, host y, host z) blocktype t) x y z
  -- the three recordings leave the level alone, so the block that is shown again is the one that was pointed at
  have hmap : S.map (pointOffset (pointed (host x, host y, host z) blocktype t) (host x, host y, host z)) = true := by
    rw [pointOffset_congr (level_pointed _ _ t)]
    exact h
  have hrevert : ∀ {β : Type} {d : Code β}, Confined S d i (pointed (host x, host y, host z) blocktype t) →
      Confined S (do Server.revert x y z; d) i (pointed (host x, host y, host z) blocktype t) := by
    intro β d hd
    refine Confined.bind (confined_revert hmap) fun _ _ => ?_
    rw [show (Server.revert x y z).run i _ = ⟨some (), i, _, out₄⟩ from h₄ i]
    exact hd
  refine Confined.then (Server.accounted_cuboidPoint _ _ _ _).shielded h₁ ?_
  refine Confined.then (Server.accounted_pastePoint _ _ _).shielded h₂ ?_
  refine Confined.then (Server.accounted_copyPoint _ _ _).shielded h₃ ?_
  exact hrevert (hrevert (confined_revert hmap))

theorem confined_setBlockClick (h : t.zPlace = true → S.map (pointOffset t (pointIn env i)) = true) :
    Confined S (Server.setBlockClick env) i t := by
  unfold Server.setBlockClick
  refine confined_recvVarW _ <| confined_recvVarW _ <| confined_recvVarW _ <| confined_recvVarW _ <|
    confined_recvVarW _ ?_
  refine Confined.getState_bind_of_blur (fun _ => rfl) ?_
  by_cases hz : t.zPlace = true
  · rw [if_pos hz]
    exact confined_point (h hz)
  · rw [if_neg hz]
    exact Guarded.confined (guarded_packet _ _)

/-! ## What is written to the map -/

/-- A byte of the map that is changed in `S`. -/
theorem confined_setMap {p : Point} {block : UInt8} (h : S.map (pointOffset t p) = true) :
    Confined S (update fun t => { t with map := Function.update t.map (pointOffset t p) block }) i t := by
  have hoffset : ∀ t', t'.within S = t.within S → pointOffset t' p = pointOffset t p := fun t' ht' =>
    congr_of_within (f := fun t => pointOffset t p) (fun _ => rfl) ht'
  have hwithin : ∀ s : Tunnel, S.map (pointOffset s p) = true →
      ({ s with map := Function.update s.map (pointOffset s p) block } : Tunnel).within S =
        { s.within S with map := Function.update (s.within S).map (pointOffset (s.within S) p) block } := by
    intro s hs
    exact congrArg (fun map => { s.within S with map := map }) (keepIn_update hs s.map block)
  refine confined_update (fun t' ht' => ?_) (fun t' ht' => ?_)
  · have hout : (fun j => !S.map j) (pointOffset t' p) = false := by simp [hoffset t' ht', h]
    exact congrArg (Prod.mk _) (keepIn_update_of_not hout t'.map block)
  · rw [hwithin t' (by rw [hoffset t' ht', h]), hwithin t h, ht']

theorem confined_setBlockPacket (h : S.map (pointOffset t (pointIn env i)) = true) :
    Confined S (Client.setBlockPacket env) i t := by
  unfold Client.setBlockPacket
  refine confined_recvVarW _ <| confined_recvVarW _ <| confined_recvVarW _ <| confined_recvVarW _ ?_
  exact Confined.then (Guarded.shielded (guarded_packet _ _)) (fun _ => run_packet _ _ _ _)
    (confined_setMap (p := pointIn env i) h)

/-- The level fills its allocation. -/
theorem confined_inflated (h : ∀ j : Int, 0 ≤ j → j < Client.uncompressedsize t → S.map j = true) :
    Confined S (update (Client.inflated env)) i t := by
  -- the old map is only kept, never read: behind the new one it stays
  have hwithin : ∀ s : Tunnel, (Client.inflated env s).within S = (Client.inflated env (s.within S)).within S := by
    intro s
    have hmap : keepIn S.map 0 (Client.inflated env s).map =
        keepIn S.map 0 (Client.inflated env (s.within S)).map := by
      funext j
      unfold keepIn
      cases hj : S.map j with
      | false => rfl
      | true =>
          have hbyte : (s.within S).map j = s.map j := map_within hj s
          unfold Client.inflated
          dsimp only
          rw [hbyte]
          rfl
    have hplayer : keepIn S.player {} s.player = keepIn S.player {} (s.within S).player :=
      (keepIn_keepIn s.player).symm
    exact congrArg₂ (fun player map => { (Client.inflated env s).within S with player := player, map := map }) hplayer
      hmap
  refine confined_update (fun t' ht' => ?_) (fun t' ht' => ?_)
  · have hsize : Client.uncompressedsize t' = Client.uncompressedsize t := congr_of_within (fun _ => rfl) ht'
    have hmap : keepIn (fun j => !S.map j) 0 (Client.inflated env t').map = keepIn (fun j => !S.map j) 0 t'.map := by
      funext j
      unfold keepIn
      cases hj : S.map j with
      | true => rw [if_neg (by simp [hj]), if_neg (by simp [hj])]
      | false =>
          have hrange : ¬ (0 ≤ j ∧ j < Client.uncompressedsize t') := by
            intro hin
            rw [hsize] at hin
            exact absurd ((h j hin.1 hin.2).symm.trans hj) (by decide)
          rw [if_pos (by simp [hj]), if_pos (by simp [hj])]
          exact if_neg hrange
    exact congrArg (Prod.mk _) hmap
  · rw [hwithin t', hwithin t, ht']

theorem confined_levelFinal (l : McLocals)
    (h : ¬ Client.ZlibError env (sized (pointIn env i) t) →
      ∀ j : Int, 0 ≤ j → j < Client.uncompressedsize (sized (pointIn env i) t) → S.map j = true) :
    Confined S (Client.levelFinal env l) i t := by
  have hfinalize : Confined S (Client.levelFinalize env) i t := by
    unfold Client.levelFinalize
    refine confined_recvVarW _ <| confined_recvVarW _ <| confined_recvVarW _ ?_
    refine Confined.then (guarded_update (fun _ => rfl) (fun _ => rfl)) (fun _ => run_update _ _ _) ?_
    refine Confined.then (Guarded.shielded (guarded_packet _ _)) (fun _ => run_packet _ _ _ _) ?_
    refine Confined.getState_bind_of_blur (fun _ => rfl) ?_
    split_ifs with herror
    · exact Guarded.confined Tame.exit
    · exact confined_inflated env (h herror)
  refine Confined.bind hfinalize fun _ _ => Guarded.confined ?_
  exact Tame.bind (Tame.onlyIf (guarded_tunnelMsg _)) fun _ => Tame.pure _

/-! ## The builder -/

theorem copyIteration_congr {t' : Tunnel} (ht' : t'.within S = t.within S) {copyBuf : Bytes} {l : Loops}
    (h : ∀ j ∈ nestAccesses t (copyBounds t) l, S.map j = true) :
    copyIteration t' copyBuf l = copyIteration t copyBuf l := by
  have hbounds : copyBounds t' = copyBounds t := congr_of_within (fun _ => rfl) ht'
  have hoffset : calculateOffset t' l.vx l.vy l.vz = calculateOffset t l.vx l.vy l.vz :=
    congr_of_within (f := fun t => calculateOffset t l.vx l.vy l.vz) (fun _ => rfl) ht'
  unfold copyIteration
  rw [hbounds, hoffset]
  by_cases hin : l.inside (copyBounds t) = true
  · rw [if_pos hin, if_pos hin]
    by_cases hz : l.level = .z
    · have hmem : calculateOffset t l.vx l.vy l.vz ∈ nestAccesses t (copyBounds t) l := by
        unfold nestAccesses
        rw [if_pos ⟨hin, hz⟩]
        exact List.mem_singleton_self _
      rw [map_congr ht' (h _ hmem)]
    · rw [if_neg hz, if_neg hz]
  · rw [if_neg hin, if_neg hin]

theorem cuboidIteration_congr {t' : Tunnel} (ht' : t'.within S = t.within S) {hidden : Bool} {l : Loops}
    (h : t.cuboid.halt = false → ∀ j ∈ nestAccesses t (cuboidBounds t) l, S.map j = true) :
    cuboidIteration t' hidden l = cuboidIteration t hidden l := by
  have hbounds : cuboidBounds t' = cuboidBounds t := congr_of_within (fun _ => rfl) ht'
  have hcuboid : t'.cuboid = t.cuboid := congr_of_within (fun _ => rfl) ht'
  have hoffset : calculateOffset t' l.vx l.vy l.vz = calculateOffset t l.vx l.vy l.vz :=
    congr_of_within (f := fun t => calculateOffset t l.vx l.vy l.vz) (fun _ => rfl) ht'
  unfold cuboidIteration
  rw [hbounds, hcuboid]
  -- the map is read in the innermost body alone, when the build has not been halted
  by_cases hin : l.inside (cuboidBounds t) = true
  · rw [if_pos hin, if_pos hin]
    cases hhalt : t.cuboid.halt with
    | true => rfl
    | false =>
        by_cases hz : l.level = .z
        · have hmem : calculateOffset t l.vx l.vy l.vz ∈ nestAccesses t (cuboidBounds t) l := by
            unfold nestAccesses
            rw [if_pos ⟨hin, hz⟩]
            exact List.mem_singleton_self _
          have hbody : cuboidBody t' l = cuboidBody t l := by
            unfold cuboidBody
            rw [hoffset, map_congr ht' (h hhalt _ hmem), hcuboid]
          rw [if_pos hz, if_pos hz, hbody]
        · rw [if_neg hz, if_neg hz]
  · rw [if_neg hin, if_neg hin]

theorem confined_builder {pc : Pc} {input : Bytes}
    (h : ∀ j ∈ mapAccesses env t input (.builder pc), S.map j = true) : Confined S (builder env pc) i t := by
  rw [builder_eq]
  refine Confined.getState_bind (fun t' ht' => ?_) (accounted_afterwards env t pc).shielded.confined
  refine congrArg afterwards ?_
  cases pc with
  | copyLoop copyBuf l => exact copyIteration_congr ht' h
  | cuboidLoop hidden l =>
      refine cuboidIteration_congr ht' fun hhalt j hj => h j ?_
      show j ∈ (if t.cuboid.halt then [] else nestAccesses t (cuboidBounds t) l)
      rw [hhalt]
      exact hj
  | _ => exact congr_of_within (f := fun t => builderIteration env t _) (fun _ => rfl) ht'

/-! ## No access is missing -/

/-- **A turn neither changes nor depends on the other bytes**: nothing in the map is accessed but what is among
    the accesses, and the new allocation of a level that arrives. -/
theorem confined_mapRound (hP : ∀ i, S.player i = true) (who : ThreadId) (l : Locals)
    (h : ∀ j ∈ mapAccesses env t i l, S.map j = true)
    (hload : LoadsLevel who i l → ¬ Client.ZlibError env (arrivingLevel env i t) →
      ∀ j : Int, 0 ≤ j → j < Client.uncompressedsize (arrivingLevel env i t) → S.map j = true) :
    Confined S (round env who l) i t := by
  cases who with
  | main =>
      cases l with
      | main => exact Guarded.confined (Tame.bind (guarded_console env hP) fun _ => Tame.pure _)
      | _ => exact Guarded.confined (Tame.pure _)
  | tunnelServer =>
      cases l with
      | tunnelServer l =>
          refine Confined.bind_pure (confined_recv_id env (fun id => Server.dispatch env id l) Tame.exit ?_) _
          -- of the client's packets only the click reads the map, and only with `/z place`
          by_cases hclick : byte i = 0x05
          · rw [hclick, Server.dispatch_of_mem (Server.own_mem (e := (0x05, Server.setBlockClick env))
              (by repeat constructor))]
            refine Confined.bind_pure (confined_setBlockClick env fun hz => ?_) _
            refine h _ ?_
            show _ ∈ (if byte i = 0x05 then if t.zPlace then [pointOffset t (arrivingPoint env i)] else [] else _)
            rw [if_pos hclick, if_pos hz]
            exact List.mem_singleton_self _
          · by_cases hlogin : byte i = 0x00 ∧ l.fucked = false
            · unfold Server.dispatch
              rw [if_pos hlogin]
              exact (Server.shielded_login env).confined
            · obtain ⟨c, hc, hdispatch⟩ := Server.guarded_other env hP hclick hlogin
              rw [hdispatch]
              exact Confined.bind_pure hc.confined _
      | _ => exact Guarded.confined (Tame.pure _)
  | mcConnect =>
      cases l with
      | connecting => exact Confined.bind_pure (Guarded.confined guarded_mcLogin) _
      | mcConnect l =>
          refine Confined.bind_pure (confined_recv_id env (fun id => Client.dispatch env id l)
            Client.guarded_disconnected ?_) _
          -- the end of a level writes the new map, a set block one place of the old one
          by_cases hlevel : byte i = 0x04
          · have hdispatch : Client.dispatch env (byte i) l = Client.levelFinal env l := by
              rw [hlevel]
              rfl
            rw [hdispatch]
            refine confined_levelFinal env l ?_
            exact hload ⟨rfl, hlevel⟩
          by_cases hset : byte i = 0x06
          · rw [hset, Client.dispatch_of_mem (Client.own_mem (e := (0x06, Client.setBlockPacket env))
              (by repeat constructor))]
            refine Confined.bind_pure (confined_setBlockPacket env ?_) _
            refine h _ ?_
            show _ ∈ (if byte i = 0x06 then [pointOffset t (arrivingPoint env i)] else [])
            rw [if_pos hset]
            exact List.mem_singleton_self _
          · exact Guarded.confined (Client.guarded_other env hP ⟨hlevel, hset⟩ l)
      | _ => exact Guarded.confined (Tame.pure _)
  | builder =>
      cases l with
      | builder pc => exact Confined.bind_pure (confined_builder env h) _
      | _ => exact Guarded.confined (Tame.pure _)

end Rounds

end LavaTunnel
