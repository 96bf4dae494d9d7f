import LavaTunnel.Correctness.Runs
import Mathlib.Data.List.SplitBy
import Mathlib.Algebra.BigOperators.Group.List.Basic

/-!
# `LavaTunnel.Correctness.Players` — where the table has the players

The server says where a player is by absolute coordinates and by signed steps. `absolute`, `delta` and `facing`
are what a packet says, and the record of a player is what all packets for the player say together. The wide
packets of the extensions are left out here: see `LavaTunnel.Correctness.Entities`.
-/

namespace LavaTunnel

open Wire Wire.Prog

/-- The three coordinates. -/
inductive Axis where
  | x
  | y
  | z
deriving DecidableEq

/-- The place of a coordinate among the three. -/
def Axis.index : Axis → Nat
  | .x => 0
  | .y => 1
  | .z => 2

/-- A coordinate of a player. -/
def Player.coord (p : Player) : Axis → UInt16
  | .x => p.x
  | .y => p.y
  | .z => p.z

/-- Where a player is and looks. -/
def Player.whereabouts (p : Player) : UInt16 × UInt16 × UInt16 × UInt8 × UInt8 := (p.x, p.y, p.z, p.yaw, p.pitch)

theorem coord_of_whereabouts {p q : Player} (h : p.whereabouts = q.whereabouts) (a : Axis) :
    p.coord a = q.coord a := by
  simp only [Player.whereabouts, Prod.mk.injEq] at h
  cases a with
  | x => exact h.1
  | y => exact h.2.1
  | z => exact h.2.2.1

/-- The record that was written. -/
@[simp] theorem player_setPlayer_self (t : Tunnel) (i : Int) (f : Player → Player) :
    (t.setPlayer i f).player i = f (t.player i) := Function.update_self _ _ _

/-- The other records. -/
theorem player_setPlayer_of_ne {i j : Int} (h : j ≠ i) (t : Tunnel) (f : Player → Player) :
    (t.setPlayer i f).player j = t.player j := Function.update_of_ne h _ _

theorem toNat_toUShort (n : Int) : ((toUShort n).toNat : Int) = n % 65536 := by
  unfold toUShort
  rw [UInt16.toNat_ofNat']
  omega

theorem toUShort_toUShort_add (n d : Int) : toUShort ((toUShort n).toNat + d) = toUShort (n + d) := by
  rw [toNat_toUShort]
  unfold toUShort
  rw [Int.emod_add_emod]

namespace Client

/-! ## What a packet says of a player -/

/-- The player a packet is for. -/
def pidOf (q : Packet) : UInt8 := byte (field q.2 0 1)

/-- The absolute coordinate in a packet. -/
def absolute (a : Axis) (q : Packet) : Option UInt16 :=
  if q.1 = 0x07 then some (host (field q.2 (65 + 2 * a.index) 2))
  else if q.1 = 0x08 then some (host (field q.2 (1 + 2 * a.index) 2))
  else none

/-- The step of a coordinate in a packet. -/
def delta (a : Axis) (q : Packet) : Int :=
  if q.1 = 0x09 ∨ q.1 = 0x0a then (byte (field q.2 (1 + a.index) 1)).toInt8.toInt else 0

/-- The yaw and the pitch in a packet. -/
def facing (q : Packet) : Option (UInt8 × UInt8) :=
  if q.1 = 0x07 then some (byte (field q.2 71 1), byte (field q.2 72 1))
  else if q.1 = 0x08 then some (byte (field q.2 7 1), byte (field q.2 8 1))
  else if q.1 = 0x09 then some (byte (field q.2 4 1), byte (field q.2 5 1))
  else if q.1 = 0x0b then some (byte (field q.2 1 1), byte (field q.2 2 1))
  else none

/-- A packet that is not one of the extension's: no entity, and no wide position. -/
def Plain (q : Packet) : Prop := q.1 ≠ 0x21 ∧ (q.1 = 0x08 → q.2.length = 9)

/-- A coordinate after a packet. -/
def tracked (p : UInt8) (a : Axis) (c : UInt16) (q : Packet) : UInt16 :=
  if pidOf q = p then (absolute a q).getD (toUShort (c.toNat + delta a q)) else c

/-- Yaw and pitch after a packet. -/
def faced (p : UInt8) (v : UInt8 × UInt8) (q : Packet) : UInt8 × UInt8 :=
  if pidOf q = p then (facing q).getD v else v

/-! ## What the code makes of it -/

section Step

variable {env : Env} {q : Packet} {t : Tunnel}

/-- The packets that change the record of the player they are for. -/
def playerIds : List UInt8 := [0x07, 0x08, 0x09, 0x0a, 0x0b, 0x0c, 0x18, 0x21]

/-- **The other packets leave all records alone.** -/
theorem player_received_of_notMem (h : q.1 ∉ playerIds) : (received env q t).player = t.player := by
  rcases received_cases env q t with ⟨-, ht⟩ | ⟨f, hf, ht⟩
  · rw [ht]
  obtain ⟨id, payload⟩ := q
  simp only [effects, List.mem_cons, Prod.mk.injEq, List.not_mem_nil, or_false] at hf
  rw [ht]
  rcases hf with ⟨rfl, rfl⟩ | ⟨rfl, rfl⟩ | ⟨rfl, rfl⟩ | ⟨rfl, rfl⟩ | ⟨rfl, -⟩ | ⟨rfl, -⟩ | ⟨rfl, -⟩ |
    ⟨rfl, -⟩ | ⟨rfl, -⟩ | ⟨rfl, -⟩ | ⟨rfl, rfl⟩ | ⟨rfl, rfl⟩ | ⟨rfl, -⟩ | ⟨rfl, -⟩ <;>
    first | rfl | simp [playerIds] at h

/-- Two changes of a record are one. -/
theorem setPlayer_setPlayer (i : Int) (f g : Player → Player) :
    (t.setPlayer i f).setPlayer i g = t.setPlayer i (fun p => g (f p)) := by
  simp [Tunnel.setPlayer]

/-- A position packet of nine bytes comes in the narrow mode. -/
theorem narrow_of_length (hfrom : FromServer t.modes q) (hid : q.1 = 0x08) (hlen : q.2.length = 9) :
    t.modes.wide = false := by
  unfold FromServer at hfrom
  rw [if_neg (by rw [hid]; decide), hid, hlen] at hfrom
  cases hwide : t.modes.wide with
  | false => rfl
  | true =>
      have hno : ∀ fast : Bool, ((0x08 : UInt8), 9) ∉ serverPackets ⟨fast, true⟩ := by decide
      rw [show t.modes = ⟨t.modes.fast, true⟩ by rw [← hwide]] at hfrom
      exact absurd hfrom (hno t.modes.fast)

/-- The packets that change the record of one player, each under its id. -/
def recordIds : List UInt8 := [0x07, 0x08, 0x09, 0x0a, 0x0b, 0x0c]

/-- A change of a record makes of a player what the packet says. -/
def Tells (q : Packet) (f : Player → Player) : Prop :=
  ∀ p : Player, (∀ a, (f p).coord a = (absolute a q).getD (toUShort ((p.coord a).toNat + delta a q))) ∧
    ((f p).yaw, (f p).pitch) = (facing q).getD (p.yaw, p.pitch)

/-- **Each of them changes the record of its player alone**, to what it says. -/
theorem received_record (env : Env) (hid : q.1 ∈ recordIds) (hplain : Plain q) (hfrom : FromServer t.modes q) :
    ∃ f, received env q t = t.setPlayer (pidOf q).toNat f ∧ Tells q f := by
  obtain ⟨id, payload⟩ := q
  simp only [recordIds, List.mem_cons, List.not_mem_nil, or_false] at hid
  have hstay : ∀ (p : Player) (a : Axis), p.coord a = toUShort ((p.coord a).toNat + 0) := by
    intro p a
    rw [Int.add_zero, toUShort_toNat]
  -- one case an id, in the order of `recordIds`
  rcases hid with rfl | rfl | rfl | rfl | rfl | rfl
  · have heq : received env (0x07, payload) t = spawned env payload t := rfl
    unfold spawned at heq
    refine ⟨_, heq, fun p => ⟨fun a => ?_, rfl⟩⟩
    cases a <;> rfl
  · have hwide := narrow_of_length hfrom rfl (hplain.2 rfl)
    have heq : received env (0x08, payload) t = placed payload 2 host t := by
      show positioned payload t = _
      unfold positioned
      rw [hwide]
      rfl
    unfold placed at heq
    refine ⟨_, heq, fun p => ⟨fun a => ?_, rfl⟩⟩
    cases a <;> rfl
  · have heq : received env (0x09, payload) t = turned payload 4 (stepped payload t) := rfl
    unfold turned stepped at heq
    rw [setPlayer_setPlayer] at heq
    refine ⟨_, heq, fun p => ⟨fun a => ?_, rfl⟩⟩
    cases a <;> rfl
  · have heq : received env (0x0a, payload) t = stepped payload t := rfl
    unfold stepped at heq
    refine ⟨_, heq, fun p => ⟨fun a => ?_, rfl⟩⟩
    cases a <;> rfl
  · have heq : received env (0x0b, payload) t = turned payload 1 t := rfl
    unfold turned at heq
    exact ⟨_, heq, fun p => ⟨hstay p, rfl⟩⟩
  · have heq : received env (0x0c, payload) t =
        t.setPlayer (pidOf (0x0c, payload)).toNat (fun p => { p with valid := false, mode := 0 }) := rfl
    exact ⟨_, heq, fun p => ⟨hstay p, rfl⟩⟩

/-- The other packets say nothing of where a player is. -/
theorem tells_nothing (hid : q.1 ∉ recordIds) (a : Axis) : absolute a q = none ∧ delta a q = 0 ∧ facing q = none := by
  have h7 : q.1 ≠ 0x07 := fun h => hid (h ▸ by decide)
  have h8 : q.1 ≠ 0x08 := fun h => hid (h ▸ by decide)
  have h9 : q.1 ≠ 0x09 := fun h => hid (h ▸ by decide)
  have ha : q.1 ≠ 0x0a := fun h => hid (h ▸ by decide)
  have hb : q.1 ≠ 0x0b := fun h => hid (h ▸ by decide)
  unfold absolute delta facing
  rw [if_neg h7, if_neg h8, if_neg h7, if_neg h8, if_neg h9, if_neg hb, if_neg (by tauto)]
  exact ⟨rfl, rfl, rfl⟩

/-- What says nothing of where a player is leaves the player there. -/
theorem whereabouts_received (env : Env) (t : Tunnel) (hid : q.1 ∉ recordIds) (hplain : Plain q) (i : Int) :
    ((received env q t).player i).whereabouts = (t.player i).whereabouts := by
  by_cases hremove : q.1 = 0x18
  · obtain ⟨id, payload⟩ := q
    obtain rfl : id = 0x18 := hremove
    show ((t.setPlayer _ (fun p => { p with valid := false })).player i).whereabouts = _
    by_cases hi : i = (byte (field payload 0 2)).toInt8.toInt
    · rw [hi, player_setPlayer_self]
      rfl
    · rw [player_setPlayer_of_ne hi]
  · have hnot : q.1 ∉ playerIds := by
      intro hmem
      simp only [playerIds, recordIds, List.mem_cons, List.not_mem_nil, or_false, not_or] at hmem hid
      have h21 := hplain.1
      tauto
    rw [player_received_of_notMem hnot]

/-- The index of a player is the id. -/
theorem index_inj {p p' : UInt8} : (p.toNat : Int) = p'.toNat ↔ p = p' := by
  rw [Int.ofNat_inj, UInt8.toNat_inj]

/-- **What a packet does to where a player is.** -/
theorem tracked_received (hplain : Plain q) (hfrom : FromServer t.modes q) (p : UInt8) (a : Axis) :
    ((received env q t).player p.toNat).coord a = tracked p a ((t.player p.toNat).coord a) q ∧
      (((received env q t).player p.toNat).yaw, ((received env q t).player p.toNat).pitch) =
        faced p ((t.player p.toNat).yaw, (t.player p.toNat).pitch) q := by
  unfold tracked faced
  -- a packet with a record writes this player or another one; every other packet tells nothing
  by_cases hid : q.1 ∈ recordIds
  · obtain ⟨f, hreceived, htells⟩ := received_record env hid hplain hfrom
    rw [hreceived]
    by_cases hp : pidOf q = p
    · rw [if_pos hp, if_pos hp, ← hp, player_setPlayer_self]
      exact ⟨(htells _).1 a, (htells _).2⟩
    · have hne : (p.toNat : Int) ≠ (pidOf q).toNat := fun h => hp (index_inj.mp h).symm
      rw [if_neg hp, if_neg hp, player_setPlayer_of_ne hne]
      exact ⟨rfl, rfl⟩
  · obtain ⟨habsolute, hdelta, hfacing⟩ := tells_nothing hid a
    have hstay := whereabouts_received env t hid hplain p.toNat
    have hcoord := coord_of_whereabouts hstay a
    simp only [Player.whereabouts, Prod.mk.injEq] at hstay
    rw [habsolute, hdelta, hfacing, hcoord, hstay.2.2.2.1, hstay.2.2.2.2, Option.getD_none, Int.add_zero,
      toUShort_toNat, Option.getD_none, ite_self, ite_self]
    exact ⟨rfl, rfl⟩

end Step

/-! ## What all packets say -/

/-- The last packet for a player that says something, what it says, and the packets behind it. -/
def LastTold {α : Type} (tells : Packet → Option α) (p : UInt8) (ps : List Packet) (v : α) (later : List Packet) :
    Prop :=
  ∃ earlier q, ps = earlier ++ q :: later ∧ pidOf q = p ∧ tells q = some v ∧
    ∀ s ∈ later, pidOf s = p → tells s = none

/-- The sum of the steps of a player. -/
def steps (a : Axis) (p : UInt8) (ps : List Packet) : Int := ((ps.filter (fun q => pidOf q = p)).map (delta a)).sum

/-- Without an absolute coordinate the steps add up. -/
theorem foldl_tracked {p : UInt8} {a : Axis} {ps : List Packet}
    (h : ∀ q ∈ ps, pidOf q = p → absolute a q = none) (c : UInt16) :
    ps.foldl (tracked p a) c = toUShort (c.toNat + steps a p ps) := by
  -- the steps add up modulo 65536, whatever the place they start from
  induction ps generalizing c with
  | nil =>
      show c = toUShort (c.toNat + 0)
      rw [Int.add_zero, toUShort_toNat]
  | cons q ps ih =>
      have hrest := ih (fun s hs => h s (List.mem_cons_of_mem q hs))
      rw [List.foldl_cons, hrest]
      by_cases hp : pidOf q = p
      · have hstep : tracked p a c q = toUShort (c.toNat + delta a q) := by
          rw [tracked, if_pos hp, h q List.mem_cons_self hp, Option.getD_none]
        have hsum : steps a p (q :: ps) = delta a q + steps a p ps := by
          unfold steps
          rw [List.filter_cons_of_pos (by simpa using hp), List.map_cons, List.sum_cons]
        rw [hstep, hsum, toUShort_toUShort_add, Int.add_assoc]
      · have hsum : steps a p (q :: ps) = steps a p ps := by
          unfold steps
          rw [List.filter_cons_of_neg (by simpa using hp)]
        rw [hsum, tracked, if_neg hp]

/-- What nothing is said of stays. -/
theorem foldl_faced {p : UInt8} {ps : List Packet} (h : ∀ q ∈ ps, pidOf q = p → facing q = none)
    (v : UInt8 × UInt8) : ps.foldl (faced p) v = v := by
  induction ps with
  | nil => rfl
  | cons q ps ih =>
      have hstep : faced p v q = v := by
        unfold faced
        split
        · next hp => rw [h q List.mem_cons_self hp, Option.getD_none]
        · rfl
      rw [List.foldl_cons, hstep]
      exact ih (fun s hs => h s (List.mem_cons_of_mem q hs))

/-- Only what comes after the last absolute coordinate counts. -/
theorem foldl_tracked_last {p : UInt8} {a : Axis} {ps later : List Packet} {v : UInt16}
    (h : LastTold (absolute a) p ps v later) (c : UInt16) :
    ps.foldl (tracked p a) c = toUShort (v.toNat + steps a p later) := by
  obtain ⟨earlier, q, rfl, hp, htells, hlater⟩ := h
  have hstep : ∀ c, tracked p a c q = v := by
    intro c
    rw [tracked, if_pos hp, htells, Option.getD_some]
  rw [List.foldl_append, List.foldl_cons, hstep, foldl_tracked hlater]

theorem foldl_faced_last {p : UInt8} {ps later : List Packet} {v : UInt8 × UInt8}
    (h : LastTold facing p ps v later) (w : UInt8 × UInt8) : ps.foldl (faced p) w = v := by
  obtain ⟨earlier, q, rfl, hp, htells, hlater⟩ := h
  have hstep : ∀ w, faced p w q = v := by
    intro w
    rw [faced, if_pos hp, htells, Option.getD_some]
  rw [List.foldl_append, List.foldl_cons, hstep, foldl_faced hlater]

/-- **The record of a player is what the packets say.** -/
theorem record_after {env : Env} (r : ServerRun env) (hplain : ∀ q ∈ r.packets, Plain q)
    (hothers : ∀ f ∈ r.others, ∀ t i, ((f t).player i).whereabouts = (t.player i).whereabouts) (p : UInt8) :
    (∀ a, ((r.after r.packets.length).player p.toNat).coord a =
        r.packets.foldl (tracked p a) ((r.state.player p.toNat).coord a)) ∧
      (((r.after r.packets.length).player p.toNat).yaw, ((r.after r.packets.length).player p.toNat).pitch) =
        r.packets.foldl (faced p) ((r.state.player p.toNat).yaw, (r.state.player p.toNat).pitch) := by
  refine ⟨fun a => ?_, ?_⟩
  · have hview := r.view_eq_foldl (fun t => (t.player p.toNat).coord a) (tracked p a)
      (fun f hf t => coord_of_whereabouts (hothers f hf t p.toNat) a)
      (fun q hq t hfrom => (tracked_received (hplain q hq) hfrom p a).1) le_rfl
    rwa [List.take_length] at hview
  · have hview := r.view_eq_foldl (fun t => ((t.player p.toNat).yaw, (t.player p.toNat).pitch)) (faced p)
      (fun f hf t => congrArg (fun w => w.2.2.2) (hothers f hf t p.toNat))
      (fun q hq t hfrom => (tracked_received (hplain q hq) hfrom p .x).2) le_rfl
    rwa [List.take_length] at hview

end Client

/-- **Player tracking.** After a run of plain packets, in which the other threads do not move players, each
    coordinate of a player is the last absolute one plus the steps since, modulo 2^16, and yaw and pitch are the
    last ones. A packet for another player leaves the record alone. -/
theorem player_tracked (env : Env) (r : ServerRun env) (hplain : ∀ q ∈ r.packets, Client.Plain q)
    (hothers : ∀ f ∈ r.others, ∀ t i, ((f t).player i).whereabouts = (t.player i).whereabouts) (p : UInt8) :
    (∀ a v later, Client.LastTold (Client.absolute a) p r.packets v later →
        ((((r.after r.packets.length).player p.toNat).coord a).toNat : Int) =
          (v.toNat + Client.steps a p later) % 65536) ∧
      (∀ a, (∀ q ∈ r.packets, Client.pidOf q = p → Client.absolute a q = none) →
        ((((r.after r.packets.length).player p.toNat).coord a).toNat : Int) =
          (((r.state.player p.toNat).coord a).toNat + Client.steps a p r.packets) % 65536) ∧
      (∀ v later, Client.LastTold Client.facing p r.packets v later →
        (((r.after r.packets.length).player p.toNat).yaw, ((r.after r.packets.length).player p.toNat).pitch) = v) ∧
      (∀ k (hk : k < r.packets.length), r.packets[k].1 ∈ Client.recordIds → Client.pidOf r.packets[k] ≠ p →
        (r.after (k + 1)).player p.toNat = (r.found k).player p.toNat) := by
  obtain ⟨hcoord, hfacing⟩ := Client.record_after r hplain hothers p
  refine ⟨fun a v later h => ?_, fun a h => ?_, fun v later h => ?_, fun k hk hid hp => ?_⟩
  · rw [hcoord a, Client.foldl_tracked_last h, toNat_toUShort]
  · rw [hcoord a, Client.foldl_tracked h, toNat_toUShort]
  · rw [hfacing, Client.foldl_faced_last h]
  · obtain ⟨f, hreceived, -⟩ := Client.received_record env hid (hplain _ (List.getElem_mem hk))
      (r.round hk).1
    have hne : (p.toNat : Int) ≠ (Client.pidOf r.packets[k]).toNat := fun h => hp (Client.index_inj.mp h).symm
    rw [r.after_succ hk, hreceived, player_setPlayer_of_ne hne]

/-- A player enters at (256, 512, 768). -/
def enters : Packet := (0x07, 5 :: List.replicate 64 32 ++ [1, 0, 2, 0, 3, 0, 9, 8])

/-- The same player takes a step back. -/
def stepsBack : Packet := (0x0a, [5, 255, 1, 0])

/-- A run of both. -/
def entersAndStepsBack : ServerRun {} :=
  .alone {} ServerRun.endDocumented_default [enters, stepsBack] {} (by decide) (by decide +kernel)

/-- The player stands one unit lower. -/
theorem player_tracked_step : (((entersAndStepsBack.after 2).player 5).x.toNat : Int) = (256 + -1) % 65536 := by
  have hplain : ∀ q ∈ entersAndStepsBack.packets, Client.Plain q := by
    intro q hq
    rcases List.mem_pair.mp hq with rfl | rfl <;> exact ⟨by decide, fun h => absurd h (by decide)⟩
  have hothers : ∀ f ∈ entersAndStepsBack.others, ∀ t i, ((f t).player i).whereabouts = (t.player i).whereabouts := by
    intro f hf t i
    obtain rfl : f = id := List.eq_of_mem_replicate hf
    rfl
  have hlast : Client.LastTold (Client.absolute .x) 5 entersAndStepsBack.packets 256 [stepsBack] := by
    refine ⟨[], enters, rfl, by decide, by decide, fun s hs _ => ?_⟩
    obtain rfl := List.mem_singleton.mp hs
    decide
  have hsteps : Client.steps .x 5 [stepsBack] = -1 := by decide
  have h := (player_tracked {} entersAndStepsBack hplain hothers 5).1 .x 256 [stepsBack] hlast
  rwa [hsteps] at h

end LavaTunnel
