import LavaTunnel.Correctness.Handlers
import LavaTunnel.Correctness.MapIndex

/-!
# `LavaTunnel.Correctness.Revert` — the block behind a click that sets a point

While points are being set a click is not passed on, and the client gets back the block that it has changed. The
coordinates come in the order of the wire and `tunnelSetBlock` turns them to that order once more, so that the
block goes to another place, unless the two bytes of each coordinate are equal.
-/

namespace LavaTunnel

open Wire Wire.Prog

/-- The block that the map holds at the place of a click. -/
def clickedBlock (t : Tunnel) (payload : Bytes) : UInt8 :=
  bOffset t (host (field payload 0 2)).toInt16 (host (field payload 2 2)).toInt16 (host (field payload 4 2)).toInt16

/-- The place of a click is in the level. -/
def ClickInLevel (t : Tunnel) (payload : Bytes) : Prop :=
  ((host (field payload 0 2)).toInt16, (host (field payload 2 2)).toInt16, (host (field payload 4 2)).toInt16) ∈
    t.blocks

/-- Nothing goes to the server, and every block that goes to the client is the one at the place of the click. -/
structure Reverted (t : Tunnel) (payload : Bytes) (sent : List (Socket × Bytes)) : Prop where
  quiet : sentTo tunnelSock sent = []
  block : ∀ p ∈ sentTo serverSock sent, p.head? = some 0x06 → p = 0x06 :: (payload.take 6 ++ [clickedBlock t payload])

/-- The two bytes of each coordinate are equal. -/
def SameEitherWay (payload : Bytes) : Prop :=
  ∀ k ∈ [0, 2, 4], (field payload k 2).reverse = field payload k 2

instance (payload : Bytes) : Decidable (SameEitherWay payload) := inferInstanceAs (Decidable (∀ _ ∈ _, _))

namespace Server

/-- The block that is sent, at the coordinates that it is sent to. -/
def turnedBack (t : Tunnel) (x y z : Bytes) : Bytes :=
  0x06 :: (x.reverse ++ y.reverse ++ z.reverse ++
    [bOffset t (host x).toInt16 (host y).toInt16 (host z).toInt16])

/-- The one for a click. -/
def clickBack (t : Tunnel) (payload : Bytes) : Bytes :=
  turnedBack t (field payload 0 2) (field payload 2 2) (field payload 4 2)

section Sent

variable {t : Tunnel} {x y z : Bytes}

/-- A coordinate of the wire, turned once more. -/
theorem wire_ofBytes {v : Bytes} (h : v.length = 2) : wire (ofBytes v).toInt16 = v.reverse := by
  obtain ⟨a, b, rfl⟩ := List.length_eq_two.mp h
  unfold wire
  rw [UInt16.toUInt16_toInt16, bytesOf_htons, bytesOf_ofBytes]

theorem sent_revert_bind (hx : x.length = 2) (hy : y.length = 2) (hz : z.length = 2) (f : Unit → Code Unit)
    (i : Bytes) : (revert x y z >>= f).sent i t = (serverSock, turnedBack t x y z) :: (f ()).sent i t := by
  unfold turnedBack
  rw [← wire_ofBytes hx, ← wire_ofBytes hy, ← wire_ofBytes hz]
  rfl

/-- The three operations are asked in turn. -/
def ask (x y z : UInt16) (blocktype : UInt8) : Code Unit := do
  cuboidPoint x y z blocktype
  pastePoint x y z
  copyPoint x y z

theorem asked_ask (x y z : UInt16) (blocktype : UInt8) : Asked (ask x y z blocktype) :=
  Mild.bind (asked_cuboidPoint x y z blocktype) fun _ =>
    Mild.bind (asked_pastePoint x y z) fun _ => asked_copyPoint x y z

/-- Then the block is put back three times. -/
theorem point_eq (x y z : Bytes) (blocktype : UInt8) : point x y z blocktype = (do
    ask (host x) (host y) (host z) blocktype
    revert x y z
    revert x y z
    revert x y z) := by
  unfold ask
  rw [bind_assoc']
  refine congrArg _ (funext fun _ => ?_)
  rw [bind_assoc']

/-- **What a click sends** while points are being set: messages, and three times the block. -/
theorem sent_point (hx : x.length = 2) (hy : y.length = 2) (hz : z.length = 2) (blocktype : UInt8) (i : Bytes) :
    ∃ messages, (point x y z blocktype).sent i t = messages ++ List.replicate 3 (serverSock, turnedBack t x y z) ∧
      ∀ e ∈ messages, Answered e.1 e.2 := by
  obtain ⟨_, t', messages, hsent, hmessages, hkept⟩ := (asked_ask (host x) (host y) (host z) blocktype).sent_bind
    (fun _ => do revert x y z; revert x y z; revert x y z) i t
  -- the operations leave the level alone
  have hlevel : t'.kept = t.kept := congrArg (fun k => k.1.1) hkept
  have hblock : turnedBack t' x y z = turnedBack t x y z := by
    simp only [Tunnel.kept, Prod.mk.injEq] at hlevel
    obtain ⟨hmap, -, hlvlx, -, hlvlz, -⟩ := hlevel
    simp only [turnedBack, bOffset, calculateOffset, hmap, hlvlx, hlvlz]
  refine ⟨messages, ?_, hmessages⟩
  rw [point_eq, hsent, sent_revert_bind hx hy hz, sent_revert_bind hx hy hz,
    ← bind_pure' (revert x y z), sent_revert_bind hx hy hz, hblock]
  rfl

/-- What a round sends for such a click. -/
theorem sent_click (env : Env) (l : ServerLocals) {payload : Bytes} (hlen : payload.length = 8)
    (hplace : t.zPlace = true) : ∃ messages, (tunnelServer env l).sent (0x05 :: payload) t =
        messages ++ List.replicate 3 (serverSock, clickBack t payload) ∧ ∀ e ∈ messages, Answered e.1 e.2 := by
  rw [sent_tunnelServer (own_mem (e := (0x05, setBlockClick env)) (by repeat constructor))]
  unfold setBlockClick
  simp (disch := omega) only [sent_recvVarW_first, sent_recvVarW_field, sent_getState_bind]
  rw [if_pos hplace]
  exact sent_point (length_field (by omega)) (length_field (by omega)) (length_field (by omega)) _ _

end Sent

/-- The coordinates that are sent are those of the click just if each is the same either way. -/
theorem clickBack_eq_iff {t : Tunnel} {payload : Bytes} (hlen : payload.length = 8) :
    clickBack t payload = 0x06 :: (payload.take 6 ++ [clickedBlock t payload]) ↔ SameEitherWay payload := by
  have hfield : ∀ k, k + 2 ≤ 8 → (field payload k 2).length = 2 := fun k hk => length_field (by omega)
  have htake : payload.take 6 = field payload 0 2 ++ field payload 2 2 ++ field payload 4 2 := by
    show payload.take (2 + 2 + 2) = _
    rw [List.take_add, List.take_add]
    rfl
  unfold clickBack turnedBack SameEitherWay
  rw [htake]
  -- the coordinates are cancelled from the back, each with its length
  constructor
  · intro h
    obtain ⟨hxy, hz⟩ := List.append_inj' (List.append_inj_left' (List.cons.inj h).2 rfl) (by simp [hfield])
    obtain ⟨hx, hy⟩ := List.append_inj' hxy (by simp [hfield])
    simp [hx, hy, hz]
  · intro h
    simp only [List.forall_mem_cons, List.not_mem_nil, IsEmpty.forall_iff, implies_true, and_true] at h
    obtain ⟨hx, hy, hz⟩ := h
    rw [hx, hy, hz]
    rfl

end Server

/-- **Pointer click revert.** While points are being set nothing of a click goes to the server, and the block that
    goes back to the client is the one of the map, at the coordinates of the click just if each of them is the same
    with its bytes exchanged. -/
theorem click_reverted_iff (env : Env) (t : Tunnel) (l : ServerLocals) (payload : Bytes) (hlen : payload.length = 8)
    (hplace : t.zPlace = true) :
    Reverted t payload ((tunnelServer env l).sent (0x05 :: payload) t) ↔ SameEitherWay payload := by
  obtain ⟨messages, hsent, hmessages⟩ := Server.sent_click env l hlen hplace
  rw [hsent, ← Server.clickBack_eq_iff (t := t) hlen]
  have hall : ∀ e ∈ messages ++ List.replicate 3 (serverSock, Server.clickBack t payload),
      e.1 = serverSock ∧ (e.2.head? = some 0x06 → e.2 = Server.clickBack t payload) := by
    intro e he
    rcases List.mem_append.mp he with he | he
    · -- a message is no block
      obtain ⟨⟨-, hsock⟩, hhead⟩ := hmessages e he
      exact ⟨hsock, fun h6 => absurd (hhead.symm.trans h6) (by decide)⟩
    · obtain rfl := List.eq_of_mem_replicate he
      exact ⟨rfl, fun _ => rfl⟩
  constructor
  · intro h
    refine h.block _ (mem_sentTo.mpr (List.mem_append_right _ ?_)) rfl
    exact List.mem_replicate.mpr ⟨by decide, rfl⟩
  · intro heq
    refine ⟨List.eq_nil_iff_forall_not_mem.mpr fun p hp => ?_, fun p hp hhead => ?_⟩
    · have hne : tunnelSock ≠ serverSock := by decide
      exact absurd (hall _ (mem_sentTo.mp hp)).1 hne
    · exact ((hall _ (mem_sentTo.mp hp)).2 hhead).trans heq

/-- The client sets the points of a cuboid in a level of 64 blocks each way. -/
def settingPoints : Tunnel :=
  { loggedIn := true, zPlace := true, cuboid := { place := true }, lvlx := 64, lvly := 64, lvlz := 64 }

/-- A click at the origin. -/
def clickAtOrigin : Bytes := [0, 0, 0, 0, 0, 0, 1, 49]

theorem click_reverted_origin :
    Reverted settingPoints clickAtOrigin ((tunnelServer {} {}).sent (0x05 :: clickAtOrigin) settingPoints) ↔
      SameEitherWay clickAtOrigin :=
  click_reverted_iff {} settingPoints {} clickAtOrigin rfl rfl

/-- A click at (1, 0, 0). -/
def clickBeside : Bytes := [0, 1, 0, 0, 0, 0, 1, 49]

/-- The client gets the block for (256, 0, 0). -/
theorem click_elsewhere : ¬ ∀ (env : Env) (t : Tunnel) (l : ServerLocals) (payload : Bytes), payload.length = 8 →
    t.zPlace = true → ClickInLevel t payload →
      Reverted t payload ((tunnelServer env l).sent (0x05 :: payload) t) := by
  intro hall
  have hin : ClickInLevel settingPoints clickBeside := ⟨by decide, by decide, by decide⟩
  have hreverted := hall {} settingPoints {} clickBeside rfl rfl hin
  have hback : [0x06, 1, 0, 0, 0, 0, 0, 0] ∈
      sentTo serverSock ((tunnelServer {} {}).sent (0x05 :: clickBeside) settingPoints) := by
    decide +kernel
  exact absurd (hreverted.block _ hback rfl) (by decide)

end LavaTunnel
