import LavaTunnel.Correctness.Entities
import LavaTunnel.Correctness.Text

/-!
# `LavaTunnel.Correctness.Records` — the life of a player's record

A player enters by a spawn and leaves by a disconnect, and the id is used again. What a spawn leaves of the earlier
player with that id is the mode and, unless the list names the new player, the `ignore` flag. A removed name clears
the record that the first byte of the name id points to, which is the wrong one for every id but zero.
-/

namespace LavaTunnel

open Wire Wire.Prog

/-- A name is on the ignore list. -/
def Listed (t : Tunnel) (name : Bytes) : Prop :=
  ∃ i : Nat, 1 ≤ i ∧ (i : Int) ≤ t.ignoreN ∧ name = cstr (t.ignores i)

/-- A name begins an entry of the ignore list, or the entry before the first one. -/
def BeginsListed (t : Tunnel) (name : Bytes) : Prop :=
  ∃ i : Nat, (i : Int) ≤ t.ignoreN ∧ name <+: cstr (t.ignores i)

theorem Listed.begins {t : Tunnel} {name : Bytes} (h : Listed t name) : BeginsListed t name := by
  obtain ⟨i, -, hi, rfl⟩ := h
  exact ⟨i, hi, List.prefix_rfl⟩

namespace Client

/-- **The test of the code**: the name begins an entry. -/
theorem ignored_iff (env : Env) (t : Tunnel) (username : Bytes) :
    ignored env t username = true ↔ BeginsListed t (cstr username) := by
  unfold ignored BeginsListed
  rw [List.any_eq_true]
  constructor
  · rintro ⟨i, hi, hequal⟩
    have hlt : i < (t.ignoreN + 1).toNat := List.mem_range.mp hi
    exact ⟨i, by omega, (strEqual_prefix_iff env _ _).mp hequal⟩
  · rintro ⟨i, hi, hprefix⟩
    exact ⟨i, List.mem_range.mpr (by omega), (strEqual_prefix_iff env _ _).mpr hprefix⟩

/-! ## What should happen -/

/-- A player or an entity enters. -/
def Spawn (q : Packet) : Prop := q.1 = 0x07 ∨ q.1 = 0x21

/-- The name that the code takes from a spawn, as `cleanString` leaves it: without the color codes and the padding, and
    with what the buffer held behind a text that the codes have made shorter. -/
def spawnName (env : Env) (t : Tunnel) (q : Packet) : Bytes :=
  if q.1 = 0x07 then cstr (cleanString env (t.player (pidOf q).toNat).username (field q.2 1 64))
  else cstr (cleanString env (env.undef 64) (field q.2 65 64))

/-- Record `i` is cleared, and no other one. -/
def Clears (i : Int) (t t' : Tunnel) : Prop :=
  (t'.player i).valid = false ∧ ∀ j, j ≠ i → (t'.player j).valid = (t.player j).valid

/-- The record is the one of the player that has entered, and those that left are cleared. -/
structure Renewed {env : Env} (r : ServerRun env) (k : Nat) (q : Packet) : Prop where
  mode : Spawn q → ((r.after (k + 1)).player (pidOf q).toNat).mode = 0
  ignore : Spawn q → (((r.after (k + 1)).player (pidOf q).toNat).ignore = true ↔
    Listed (r.found k) (spawnName env (r.found k) q))
  disconnect : q.1 = 0x0c → Clears (pidOf q).toNat (r.found k) (r.after (k + 1))
  remove : q.1 = 0x18 → Clears (host (field q.2 0 2)).toNat (r.found k) (r.after (k + 1))

/-- What a spawn needs of the record it writes: the earlier player was neither followed nor ignored, and the name is
    not just the beginning of a listed one. -/
def CleanRecord (env : Env) (t : Tunnel) (q : Packet) : Prop :=
  (t.player (pidOf q).toNat).mode = 0 ∧
    (Listed t (spawnName env t q) ∨
      ¬ BeginsListed t (spawnName env t q) ∧ (t.player (pidOf q).toNat).ignore = false)

/-- What a spawn needs of the record it misses: it is as it should be already. -/
def KnownRecord (env : Env) (t : Tunnel) (q : Packet) : Prop :=
  (t.player (pidOf q).toNat).mode = 0 ∧
    ((t.player (pidOf q).toNat).ignore = true ↔ Listed t (spawnName env t q))

/-- What a removed name needs: it is the first one, or neither its record nor the one that is cleared is valid. -/
def RightName (t : Tunnel) (nameid : Bytes) : Prop :=
  host nameid = 0 ∨
    (t.player (host nameid).toNat).valid = false ∧ (t.player (byte nameid).toInt8.toInt).valid = false

/-- What a packet needs so that the records are right after it. -/
structure Orderly (env : Env) (t : Tunnel) (q : Packet) : Prop where
  written : q.1 = 0x07 ∨ q.1 = 0x21 ∧ (pidOf q).toNat < 128 → CleanRecord env t q
  missed : q.1 = 0x21 ∧ 128 ≤ (pidOf q).toNat → KnownRecord env t q
  removed : q.1 = 0x18 → RightName t (field q.2 0 2)

/-! ## What does happen -/

section Step

variable {env : Env} {payload : Bytes} {t : Tunnel}

/-- The record that a spawn writes keeps the mode, and keeps being ignored. -/
theorem spawned_record (env : Env) (t : Tunnel) (q : Packet) (h : q.1 = 0x07 ∨ q.1 = 0x21 ∧ (pidOf q).toNat < 128) :
    ((received env q t).player (pidOf q).toNat).mode = (t.player (pidOf q).toNat).mode ∧
      (((received env q t).player (pidOf q).toNat).ignore = true ↔
        BeginsListed t (spawnName env t q) ∨ (t.player (pidOf q).toNat).ignore = true) := by
  have hentered : ∀ p : Player, (entered env t p).ignore = true ↔
      BeginsListed t (cstr p.username) ∨ p.ignore = true := by
    intro p
    rw [← ignored_iff env]
    show (if ignored env t p.username then true else p.ignore) = true ↔ _
    split <;> simp_all
  obtain ⟨id, payload⟩ := q
  -- both spawns enter the player in the same way, under a name that they read from different fields
  rcases h with hid | ⟨hid, hlow⟩
  · obtain rfl : id = 0x07 := hid
    have hreceived : received env (0x07, payload) t = spawned env payload t := rfl
    have hindex : byte (field payload 0 1) = pidOf (0x07, payload) := rfl
    rw [hreceived, spawned, hindex, player_setPlayer_self]
    exact ⟨rfl, hentered _⟩
  · obtain rfl : id = 0x21 := hid
    have hreceived : received env (0x21, payload) t = entityAdded env payload t := rfl
    have hindex : (byte (field payload 0 1)).toInt8.toInt = ((pidOf (0x21, payload)).toNat : Int) := by
      rw [toInt_toInt8]
      exact if_pos hlow
    have hname : ∀ p : Player, cstr (strcpy p.username (cleanString env (env.undef 64) (field payload 65 64))) =
        spawnName env t (0x21, payload) := by
      intro p
      unfold strcpy overwrite
      rw [List.append_assoc]
      exact cstr_append_zero (zero_notMem_cstr _) _
    rw [hreceived, entityAdded, addEntity, hindex, player_setPlayer_self, ← hname (t.player _)]
    exact ⟨rfl, hentered _⟩

/-- The record that an entity from 128 on should have, and does not get. -/
theorem missed_record (q : Packet) (hid : q.1 = 0x21) (hhigh : 128 ≤ (pidOf q).toNat) :
    (received env q t).player (pidOf q).toNat = t.player (pidOf q).toNat := by
  obtain ⟨id, payload⟩ := q
  obtain rfl : id = 0x21 := hid
  have hreceived : received env (0x21, payload) t = entityAdded env payload t := rfl
  have hlt : (pidOf (0x21, payload)).toNat < 256 := UInt8.toNat_lt _
  have hindex : (byte (field payload 0 1)).toInt8.toInt = ((pidOf (0x21, payload)).toNat : Int) - 256 := by
    rw [toInt_toInt8]
    exact if_neg (Nat.not_lt.mpr hhigh)
  rw [hreceived, entityAdded, addEntity, hindex, player_setPlayer_of_ne (by omega)]

/-- A disconnect clears its record. -/
theorem clears_disconnect : Clears (pidOf (0x0c, payload)).toNat t (received env (0x0c, payload) t) := by
  have hreceived : received env (0x0c, payload) t =
      t.setPlayer (pidOf (0x0c, payload)).toNat (fun p => { p with valid := false, mode := 0 }) := rfl
  rw [hreceived]
  refine ⟨?_, fun j hj => ?_⟩
  · rw [player_setPlayer_self]
  · rw [player_setPlayer_of_ne hj]

/-- The index of a removed name is right for the first name only. -/
theorem nameid_index {nameid : Bytes} (h : nameid.length = 2) :
    (byte nameid).toInt8.toInt = ((host nameid).toNat : Int) ↔ host nameid = 0 := by
  obtain ⟨high, low, rfl⟩ := List.length_eq_two.mp h
  have hlt : low.toNat < 256 := UInt8.toNat_lt _
  have hhost : (host [high, low]).toNat = low.toNat + 256 * high.toNat := by
    unfold host ntohs
    rw [bytesOf_ofBytes]
    exact toNat_ofBytes low high []
  have hzero : host [high, low] = 0 ↔ (host [high, low]).toNat = 0 := by
    rw [← UInt16.toNat_inj]
    rfl
  have hbyte : byte [high, low] = high := rfl
  rw [hzero, hhost, hbyte, toInt_toInt8]
  split <;> omega

/-- **A removed name clears its record** just if it is the right one or there is nothing to clear. -/
theorem clears_remove_iff (hlen : payload.length = 2) :
    Clears (host (field payload 0 2)).toNat t (received env (0x18, payload) t) ↔
      RightName t (field payload 0 2) := by
  have hfield : field payload 0 2 = payload := by
    unfold field
    rw [List.drop_zero, List.take_of_length_le hlen.le]
  have hreceived : received env (0x18, payload) t =
      t.setPlayer (byte (field payload 0 2)).toInt8.toInt (fun p => { p with valid := false }) := rfl
  rw [hreceived, hfield]
  unfold Clears RightName
  -- the code clears the record of the first byte, which is the right one, or one that was clear already
  by_cases hindex : (byte payload).toInt8.toInt = ((host payload).toNat : Int)
  · refine iff_of_true ⟨?_, fun j hj => ?_⟩ (Or.inl ((nameid_index hlen).mp hindex))
    · rw [hindex, player_setPlayer_self]
    · rw [hindex, player_setPlayer_of_ne hj]
  · have hne : host payload ≠ 0 := fun h => hindex ((nameid_index hlen).mpr h)
    have hown : ((t.setPlayer (byte payload).toInt8.toInt (fun p => { p with valid := false })).player
        (host payload).toNat).valid = (t.player (host payload).toNat).valid := by
      rw [player_setPlayer_of_ne (Ne.symm hindex)]
    constructor
    · rintro ⟨hcleared, hothers⟩
      refine Or.inr ⟨hown.symm.trans hcleared, ?_⟩
      have hother := hothers _ hindex
      rw [player_setPlayer_self] at hother
      exact hother.symm
    · rintro (h | ⟨hvalid, hwrong⟩)
      · exact absurd h hne
      · refine ⟨hown.trans hvalid, fun j hj => ?_⟩
        by_cases hj' : j = (byte payload).toInt8.toInt
        · rw [hj', player_setPlayer_self, hwrong]
        · rw [player_setPlayer_of_ne hj']

end Step

/-- **The records are right after a packet just if it is orderly.** -/
theorem renewed_iff {env : Env} (r : ServerRun env) {k : Nat} (hk : k < r.packets.length) :
    Renewed r k r.packets[k] ↔ Orderly env (r.found k) r.packets[k] := by
  have hafter := r.after_succ hk
  have hfrom := (r.round hk).1
  generalize r.packets[k] = q at hafter hfrom ⊢
  -- `ignore` is only ever set, so an old flag counts as much as the list
  have hlow : ∀ (begins listed : Prop) (flag : Bool), (listed → begins) →
      ((begins ∨ flag = true ↔ listed) ↔ listed ∨ ¬ begins ∧ flag = false) := by
    intro begins listed flag hlisted
    cases flag with
    | false =>
        simp only [Bool.false_eq_true, or_false, and_true]
        tauto
    | true => simp only [or_true, true_iff, reduceCtorEq, and_false, or_false]
  have hwritten : (q.1 = 0x07 ∨ q.1 = 0x21 ∧ (pidOf q).toNat < 128) →
      ((((r.after (k + 1)).player (pidOf q).toNat).mode = 0 ∧
        (((r.after (k + 1)).player (pidOf q).toNat).ignore = true ↔
          Listed (r.found k) (spawnName env (r.found k) q))) ↔ CleanRecord env (r.found k) q) := by
    intro h
    obtain ⟨hmode, hignore⟩ := spawned_record env (r.found k) q h
    rw [hafter, hmode, hignore, hlow _ _ _ Listed.begins]
    rfl
  -- an entity from 128 on is written to another index: the record stays as it was
  have hmissed : (q.1 = 0x21 ∧ 128 ≤ (pidOf q).toNat) →
      ((((r.after (k + 1)).player (pidOf q).toNat).mode = 0 ∧
        (((r.after (k + 1)).player (pidOf q).toNat).ignore = true ↔
          Listed (r.found k) (spawnName env (r.found k) q))) ↔ KnownRecord env (r.found k) q) := by
    intro h
    rw [hafter, missed_record q h.1 h.2]
    rfl
  have hremoved : q.1 = 0x18 → (Clears (host (field q.2 0 2)).toNat (r.found k) (r.after (k + 1)) ↔
      RightName (r.found k) (field q.2 0 2)) := by
    intro hid
    obtain ⟨id, payload⟩ := q
    obtain rfl : id = 0x18 := hid
    have hmem : ((0x18 : UInt8), payload.length) ∈ serverPackets (r.found k).modes := hfrom
    rw [hafter]
    exact clears_remove_iff (by simpa [serverPackets] using hmem)
  constructor
  · intro h
    refine ⟨fun hq => ?_, fun hq => ?_, fun hq => (hremoved hq).mp (h.remove hq)⟩
    · have hspawn : Spawn q := hq.imp id And.left
      exact (hwritten hq).mp ⟨h.mode hspawn, h.ignore hspawn⟩
    · exact (hmissed hq).mp ⟨h.mode (Or.inr hq.1), h.ignore (Or.inr hq.1)⟩
  · intro h
    have hspawn : Spawn q → ((r.after (k + 1)).player (pidOf q).toNat).mode = 0 ∧
        (((r.after (k + 1)).player (pidOf q).toNat).ignore = true ↔
          Listed (r.found k) (spawnName env (r.found k) q)) := by
      intro hq
      -- a spawn of either kind is written, or it is an entity that misses
      rcases Nat.lt_or_ge (pidOf q).toNat 128 with hlt | hge
      · have hcase := hq.imp id (fun h21 => And.intro h21 hlt)
        exact (hwritten hcase).mpr (h.written hcase)
      · rcases hq with h7 | h21
        · exact (hwritten (Or.inl h7)).mpr (h.written (Or.inl h7))
        · exact (hmissed ⟨h21, hge⟩).mpr (h.missed ⟨h21, hge⟩)
    refine ⟨fun hq => (hspawn hq).1, fun hq => (hspawn hq).2, fun hq => ?_, fun hq =>
      (hremoved hq).mpr (h.removed hq)⟩
    obtain ⟨id, payload⟩ := q
    obtain rfl : id = 0x0c := hq
    rw [hafter]
    exact clears_disconnect

end Client

/-- **Records do not outlive their player.** In a run, whatever the other threads do, the records are right after
    every packet just if every packet is orderly in the state it finds. -/
theorem records_renewed_iff (env : Env) (r : ServerRun env) :
    (∀ k (_ : k < r.packets.length), Client.Renewed r k r.packets[k]) ↔
      ∀ k (_ : k < r.packets.length), Client.Orderly env (r.found k) r.packets[k] :=
  forall₂_congr fun _ hk => Client.renewed_iff r hk

theorem noKick_name : ∀ p ∈ ([(0x18, [0, 1])] : List Packet).dropLast, p.1 ≠ 0x0e := by decide

theorem fromServer_name : ∀ p ∈ ([(0x18, [0, 1])] : List Packet),
    FromServer ({ player := fun _ => { valid := true } } : Tunnel).modes p ∧ p.1 ≠ 0x11 := by
  decide +kernel

/-- Everybody is there, and name 1 is removed. -/
def nameLeaves : ServerRun {} :=
  .alone {} ServerRun.endDocumented_default [(0x18, [0, 1])] { player := fun _ => { valid := true } } noKick_name
    fromServer_name

/-- Player 0 is cleared, and player 1 is not. -/
theorem record_outlives : ¬ ∀ (env : Env) (r : ServerRun env) (k : Nat) (_ : k < r.packets.length),
    Client.Renewed r k r.packets[k] := by
  intro hall
  have horderly := (Client.renewed_iff nameLeaves (k := 0) (by decide)).mp (hall {} nameLeaves 0 (by decide))
  rcases horderly.removed rfl with hzero | ⟨hvalid, -⟩
  · exact absurd hzero (by decide)
  · exact absurd hvalid (by decide)

end LavaTunnel
