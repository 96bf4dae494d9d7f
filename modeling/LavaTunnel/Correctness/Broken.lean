import LavaTunnel.Correctness.Mirror
import LavaTunnel.Correctness.Requests
import LavaTunnel.Wire.Cut

/-!
# `LavaTunnel.Correctness.Broken` — a connection that breaks off

No handler looks at what `recvW` returns. When the connection ends inside a packet, the fields that were not
received are whatever the memory held before, and the packet is written and stored as if it were complete.
What is spared is the little that is neither: two packets of the server that are ignored, and what the tunnel
keeps to itself.
-/

namespace LavaTunnel

open Wire Wire.Prog

/-- The player table, the map and the level on its way to it, and where the user is. -/
def Tunnel.tracked (t : Tunnel) :=
  (t.player, t.map, t.mapAlloc, t.lvlx, t.lvly, t.lvlz, t.mapC, t.mapSize, t.user)

/-- What no command changes, and the players, are all that is tracked. -/
theorem tracked_eq_iff {t t' : Tunnel} (h : t'.keptUser = t.keptUser) :
    t'.tracked = t.tracked ↔ t'.player = t.player := by
  have hsplit : ∀ s : Tunnel, s.tracked = (s.player, s.keptUser.1.1, s.keptUser.1.2.1, s.keptUser.1.2.2.1,
      s.keptUser.1.2.2.2.1, s.keptUser.1.2.2.2.2.1, s.keptUser.2.2.1, s.keptUser.2.2.2, s.keptUser.2.1.1) :=
        fun _ => rfl
  refine ⟨fun htracked => congrArg Prod.fst htracked, fun hplayer => ?_⟩
  rw [hsplit t', hsplit t, h, hplayer]

/-! ## Receiving from a line -/

section Line

variable {α : Type} (env : Env) {n : Nat}

/-- The loop of `recvW` on a line that may be too short. -/
theorem run_recvWLoop_line (fuel size : Nat) (buffer i : Bytes) (broken : Bool) (t : Tunnel)
    (hfuel : size ≤ buffer.length + fuel) :
    ∃ v, (recvWLoop fuel size buffer).run (⟨i, broken⟩ : Line) t =
      ⟨some (v, buffer ++ i.take (size - buffer.length)), ⟨i.drop (size - buffer.length), broken⟩, t, []⟩ := by
  induction fuel generalizing buffer i with
  | zero =>
      have h0 : size - buffer.length = 0 := by omega
      exact ⟨buffer.length, by simp [recvWLoop, h0]⟩
  | succ fuel ih =>
      unfold recvWLoop
      by_cases hlt : buffer.length < size
      · rw [if_pos hlt, run_recvCall_bind]
        cases i with
        | nil =>
            cases broken with
            | true =>
                have hrecv : Transport.recv (⟨[], true⟩ : Line) (size - buffer.length) = (none, ⟨[], true⟩) :=
                  if_pos ⟨rfl, rfl, by omega⟩
                rw [hrecv]
                exact ⟨-1, by simp⟩
            | false =>
                have hrecv : Transport.recv (⟨[], false⟩ : Line) (size - buffer.length) = (some [], ⟨[], false⟩) := by
                  show (if _ then _ else _) = _
                  rw [if_neg (by simp), List.take_nil, List.drop_nil]
                rw [hrecv]
                exact ⟨buffer.length, by simp⟩
        | cons b bs =>
            obtain ⟨m, hm⟩ : ∃ m, size - buffer.length = m + 1 := ⟨size - buffer.length - 1, by omega⟩
            rw [recv_line_of_ne_nil (Or.inl (by simp)), hm, List.take_succ_cons, List.drop_succ_cons]
            obtain ⟨v, hrun⟩ := ih (buffer ++ b :: bs.take m) (bs.drop m)
              (by rw [List.length_append, List.length_cons]; omega)
            refine ⟨v, ?_⟩
            show (recvWLoop fuel size (buffer ++ b :: bs.take m)).run (⟨bs.drop m, broken⟩ : Line) t = _
            have hleft : size - (buffer ++ b :: bs.take m).length = m - (bs.take m).length := by
              rw [List.length_append, List.length_cons]
              omega
            rw [hrun, hleft]
            -- either all `m` bytes were there, or none are left
            have hnone : (bs.drop m).take (m - (bs.take m).length) = [] ∧
                (bs.drop m).drop (m - (bs.take m).length) = bs.drop m := by
              rcases Nat.lt_or_ge bs.length m with h | h
              · rw [List.drop_eq_nil_of_le h.le, List.take_nil, List.drop_nil]
                exact ⟨rfl, rfl⟩
              · rw [List.length_take_of_le h, Nat.sub_self]
                exact ⟨rfl, rfl⟩
            rw [hnone.1, hnone.2, List.append_nil]
      · rw [if_neg hlt]
        have h0 : size - buffer.length = 0 := by omega
        exact ⟨buffer.length, by simp [h0]⟩

/-- Whatever is there is received; the rest of a variable stays as it was. -/
theorem run_recvVarW_line (f : Bytes → Code α) (i : Bytes) (broken : Bool) (t : Tunnel) :
    (recvVarW env n >>= f).run (⟨i, broken⟩ : Line) t =
      (f (env.fill n (i.take n))).run (⟨i.drop n, broken⟩ : Line) t := by
  obtain ⟨v, hrun⟩ := run_recvWLoop_line n n [] i broken t (by simp)
  unfold recvVarW
  rw [bind_assoc']
  show (recvWLoop n n [] >>= _).run _ t = _
  rw [run_bind_of hrun]
  rfl

/-- The id of a packet is there. -/
theorem run_recvW_line_id (f : Int × Bytes → Code α) (id : UInt8) (part : Bytes) (broken : Bool) (t : Tunnel) :
    (recvW 1 >>= f).run (⟨id :: part, broken⟩ : Line) t = (f (1, [id])).run (⟨part, broken⟩ : Line) t := by
  have htakes : (recvW 1 : Code (Int × Bytes)).Takes [id] t (some (1, [id])) t [] := fun _ => rfl
  have hrun := htakes.run_line part broken
  rw [List.cons_append, List.nil_append] at hrun
  rw [run_bind_of hrun]
  rfl

end Line

/-! ## What writes whatever it receives -/

section Speaks

variable {α : Type} {env : Env} {n : Nat} {s : Socket}

theorem goesOn_recvW (n : Nat) : (recvW n).GoesOn := by
  have hloop : ∀ fuel buffer, (recvWLoop fuel n buffer).GoesOn := by
    intro fuel
    induction fuel with
    | zero => exact fun _ => trivial
    | succ fuel ih =>
        intro buffer
        unfold recvWLoop
        split
        · rintro (_ | _ | ⟨b, bs⟩)
          · trivial
          · trivial
          · exact ih _
        · trivial
  exact hloop n []

theorem speaks_recvVarW {f : Bytes → Code α} (h : ∀ v, (f v).Speaks s) : (recvVarW env n >>= f).Speaks s := by
  unfold recvVarW
  rw [bind_assoc']
  exact GoesOn.bind_speaks (goesOn_recvW n) (fun r => h _)

theorem speaks_recvVar {f : Bytes → Code α} (h : ∀ v, (f v).Speaks s) : (recvVar env n >>= f).Speaks s := by
  intro r
  exact h _

/-- A relay writes at least its id. -/
theorem speaks_relay (r : Relay) : (relay env s r).Speaks s := by
  have hfields : ∀ (fs : List Field) (env : Env), (recvFields env fs).GoesOn := by
    intro fs
    induction fs with
    | nil => exact fun _ => trivial
    | cons f fs ih =>
        intro env
        have hget : (f.get env).GoesOn := by
          unfold Field.get
          cases f.recvW with
          | true => exact (goesOn_recvW f.width).bind (fun _ => trivial)
          | false => exact fun _ => trivial
        exact hget.bind (fun _ => (ih (env.var 1)).bind (fun _ => trivial))
  refine GoesOn.bind_speaks (hfields r.layout env) (fun vs => Speaks.packet ?_)
  unfold Relay.calls
  cases r.sendW <;> exact List.cons_ne_nil _ _

end Speaks

namespace Client

variable (env : Env)

theorem speaks_serverMotd (l : McLocals) : (serverMotd env l).Speaks serverSock := by
  unfold serverMotd
  refine speaks_recvVarW fun _ => speaks_recvVarW fun _ => speaks_recvVarW fun _ => fun r => ?_
  exact Speaks.getState_bind fun t => Speaks.bind (Speaks.packet (List.cons_ne_nil _ _))

theorem speaks_levelFinal (l : McLocals) : (levelFinal env l).Speaks serverSock := by
  refine Speaks.bind ?_
  unfold levelFinalize
  refine speaks_recvVarW fun _ => speaks_recvVarW fun _ => speaks_recvVarW fun _ => Speaks.update_bind ?_
  exact Speaks.bind (Speaks.packet (List.cons_ne_nil _ _))

theorem speaks_kick : (kick env).Speaks serverSock := by
  unfold kick
  exact speaks_recvVarW fun _ => Speaks.update_bind (Speaks.bind (Speaks.packet (List.cons_ne_nil _ _)))

/-- A position is passed on before the player is followed. -/
theorem speaks_posAndOrientation : (posAndOrientation env).Speaks serverSock := by
  have hposition : ∀ width coord, (position env width coord).Speaks serverSock := by
    intro width coord
    unfold position
    refine speaks_recvVarW fun _ => speaks_recvVarW fun _ => speaks_recvVarW fun _ => speaks_recvVarW fun _ =>
      speaks_recvVarW fun _ => speaks_recvVarW fun _ => Speaks.update_bind ?_
    exact Speaks.bind (Speaks.packet (List.cons_ne_nil _ _))
  exact Speaks.getState_bind fun _ => Speaks.ite (hposition _ _) (hposition _ _)

/-- **A handler writes what it has received**, and what it has not. The exceptions are the level data, the two
    packets that are ignored, and the entity that is not passed on. -/
theorem speaks_handler {e : UInt8 × Code Unit} (he : e ∈ handlers env)
    (hid : e.1 ∉ ([0x03, 0x14, 0x21, 42] : List UInt8)) : e.2.Speaks serverSock := by
  have hpacket : ∀ (id : UInt8) (calls : List Call),
      (Prog.packet serverSock (.sendW [id] :: calls) : Code Unit).Speaks serverSock :=
    fun id calls => Speaks.packet (List.cons_ne_nil _ _)
  -- a relay, or a handler of its own: it receives its fields and writes them in one packet
  rcases List.mem_append.mp he with he | he
  · obtain ⟨r, hr, rfl⟩ := List.mem_map.mp he
    exact speaks_relay r
  · simp only [List.mem_cons, List.not_mem_nil, or_false] at he
    rcases he with rfl | rfl | rfl | rfl | rfl | rfl | rfl | rfl | rfl | rfl | rfl | rfl | rfl | rfl | rfl |
      rfl | rfl
    · exact Speaks.getState_bind fun _ => Speaks.ite (speaks_relay _) (speaks_relay _)
    · exact absurd (by simp) hid
    · exact speaks_recvVarW fun _ => speaks_recvVarW fun _ => speaks_recvVarW fun _ => speaks_recvVarW fun _ =>
        Speaks.bind (hpacket _ _)
    · exact speaks_recvVarW fun _ => speaks_recvVarW fun _ => speaks_recvVarW fun _ => speaks_recvVarW fun _ =>
        speaks_recvVarW fun _ => speaks_recvVarW fun _ => speaks_recvVarW fun _ =>
        Speaks.update_bind (hpacket _ _)
    · exact speaks_posAndOrientation env
    · exact speaks_recvVarW fun _ => speaks_recvVarW fun _ => speaks_recvVarW fun _ => speaks_recvVarW fun _ =>
        speaks_recvVarW fun _ => speaks_recvVarW fun _ => Speaks.update_bind (Speaks.bind (hpacket _ _))
    · exact speaks_recvVarW fun _ => speaks_recvVarW fun _ => speaks_recvVarW fun _ => speaks_recvVarW fun _ =>
        Speaks.update_bind (Speaks.bind (hpacket _ _))
    · exact speaks_recvVarW fun _ => speaks_recvVarW fun _ => speaks_recvVarW fun _ =>
        Speaks.update_bind (hpacket _ _)
    · exact speaks_recvVarW fun _ => Speaks.bind (hpacket _ _)
    · exact speaks_recvVarW fun _ => speaks_recvVarW fun _ => hpacket _ _
    · exact speaks_recvVarW fun _ => speaks_recvVarW fun _ => Speaks.update_bind (hpacket _ _)
    · exact absurd (by simp) hid
    · exact absurd (by simp) hid
    · exact speaks_recvVarW fun _ => Speaks.bind (Speaks.packet (List.cons_ne_nil _ _))
    · exact speaks_recvVarW fun _ => speaks_recvVarW fun _ => speaks_recvVarW fun _ =>
        Speaks.getState_bind fun _ => Speaks.ite (hpacket _ _) (hpacket _ _)
    · exact speaks_recvVarW fun _ => speaks_recvVarW fun _ => speaks_recvVarW fun _ => speaks_recvVarW fun _ =>
        speaks_recvVarW fun _ => speaks_recvVarW fun _ =>
        Speaks.getState_bind fun _ => Speaks.ite (hpacket _ _) (hpacket _ _)
    · exact absurd (by simp) hid

/-- The record that the rest of an entity makes, its missing fields being what the memory held. -/
def partEntity (part : Bytes) (t : Tunnel) : Tunnel :=
  addEntity env ((env.var 1).fill 1 (field part 0 1)) ((env.var 3).fill 64 (field part 65 64))
    ((env.var 7).fill 1 (field part 141 1)) ((env.var 8).fill 1 (field part 142 1)) t

/-- **What is spared** when `mcConnect` gets the part of a packet: the two packets that it ignores, and an entity that
    is stored as it was before. -/
def Spared (t : Tunnel) (id : UInt8) (part : Bytes) : Prop :=
  id = 0x14 ∨ id = 42 ∨
    (id = 0x21 ∧ t.negotiated CPE.extEntityPos = true ∧ (partEntity env part t).player = t.player)

section Part

variable {env} {id : UInt8} {part : Bytes} {broken : Bool} {t : Tunnel}

/-- The round of a part is what its handler does. -/
theorem run_mcConnect_line {c : Code Unit} (hc : (id, c) ∈ handlers env) (l : McLocals) :
    (mcConnect env l).run (⟨id :: part, broken⟩ : Line) t =
      andThen (c.run (⟨part, broken⟩ : Line) t) (fun _ => pure l) := by
  rw [mcConnect, run_recvW_line_id]
  show (dispatch env id l).run _ t = _
  rw [dispatch_of_mem hc, run_bind]

theorem harmless_mcConnect_iff {c : Code Unit} (hc : (id, c) ∈ handlers env) (l : McLocals) :
    Harmless serverSock Tunnel.tracked (mcConnect env l) ⟨id :: part, broken⟩ t ↔
      Harmless serverSock Tunnel.tracked c ⟨part, broken⟩ t := by
  unfold Harmless
  rw [run_mcConnect_line hc]
  generalize c.run (⟨part, broken⟩ : Line) t = o
  obtain ⟨r, i', t', out⟩ := o
  cases r with
  | none => exact Iff.rfl
  | some a =>
      show (stream serverSock (out ++ []) = [] ∧ _) ↔ _
      rw [List.append_nil]
      exact Iff.rfl

/-- A packet that is ignored. -/
theorem harmless_of_ignored {c : Code Unit} (h : c.Tame Tunnel.tracked Tunnel.read fun _ _ => False) :
    Harmless serverSock Tunnel.tracked c ⟨part, broken⟩ t := by
  have htame : c.Tame Tunnel.tracked Tunnel.read fun s _ => s ≠ serverSock :=
    h.mono (fun k => k) (fun _ _ => False.elim)
  exact harmless_of_tame htame ⟨part, broken⟩ t

/-- A piece of the level is written, or its length is negative and has been counted before the program ends. -/
theorem not_harmless_levelData : ¬ Harmless serverSock Tunnel.tracked (levelData env) ⟨part, broken⟩ t := by
  intro hh
  unfold Harmless at hh
  rw [levelData, run_recvVarW_line] at hh
  dsimp only at hh
  rw [run_update_bind] at hh
  by_cases hneg : (host (env.fill 2 (part.take 2))).toInt16.toInt < 0
  · rw [if_pos hneg, run_exit] at hh
    have hsize : int32 (t.mapSize + (host (env.fill 2 (part.take 2))).toInt16.toInt) = t.mapSize :=
      congrArg (fun k => k.2.2.2.2.2.2.2.1) hh.2
    exact int32_add_ne t.mapSize (by have := Int16.le_toInt (host (env.fill 2 (part.take 2))).toInt16; omega) hneg hsize
  · rw [if_neg hneg] at hh
    refine absurd hh.1 (Speaks.run ?_ _ _)
    refine GoesOn.bind_speaks (goesOn_recvW _) fun r => GoesOn.bind_speaks (goesOn_recvW _) fun g =>
      speaks_recvVarW fun _ => Speaks.update_bind (Speaks.packet ?_)
    exact List.cons_ne_nil _ _

theorem harmless_extAddEntity2_iff :
    Harmless serverSock Tunnel.tracked (extAddEntity2 env) ⟨part, broken⟩ t ↔
      t.negotiated CPE.extEntityPos = true ∧ (partEntity env part t).player = t.player := by
  unfold Harmless
  rw [extAddEntity2, run_getState_bind]
  by_cases hwide : t.negotiated CPE.extEntityPos = true
  · rw [if_pos hwide]
    simp only [run_recvVarW_line, List.drop_drop, run_update, stream_nil]
    show (_ ∧ (partEntity env part t).tracked = t.tracked) ↔ _
    refine ⟨fun hh => ⟨hwide, congrArg Prod.fst hh.2⟩, fun hh => ⟨trivial, ?_⟩⟩
    -- the record is all that changes
    show ((partEntity env part t).player, _) = _
    rw [hh.2]
    rfl
  · rw [if_neg hwide]
    refine ⟨fun hh => absurd hh.1 (Speaks.run ?_ _ _), fun h => absurd h.1 hwide⟩
    refine speaks_recvVarW fun _ => speaks_recvVarW fun _ => speaks_recvVarW fun _ => speaks_recvVarW fun _ =>
      speaks_recvVarW fun _ => speaks_recvVarW fun _ => speaks_recvVarW fun _ => speaks_recvVarW fun _ =>
      Speaks.bind (Speaks.packet (List.cons_ne_nil _ _))

/-- A login, a level and a kick are written, whatever is received of them. -/
theorem speaks_dispatch {id : UInt8} (hid : id = 0x00 ∨ id = 0x04 ∨ id = 0x0e) (l : McLocals) :
    (dispatch env id l).Speaks serverSock := by
  rcases hid with rfl | rfl | rfl
  · exact speaks_serverMotd env l
  · exact speaks_levelFinal env l
  · exact speaks_kick env

variable (env) in
/-- A packet that the loop is written for has a handler of its own, or is one of these three. -/
theorem handled_of_fromServer {m : Modes} {p : Packet} (hp : FromServer m p) :
    (p.1 = 0x00 ∨ p.1 = 0x04 ∨ p.1 = 0x0e) ∨ ∃ c, (p.1, c) ∈ handlers env := by
  have hall : ∀ fast wide : Bool, ∀ e ∈ serverPackets ⟨fast, wide⟩, (e.1 = 0x00 ∨ e.1 = 0x04 ∨ e.1 = 0x0e) ∨
      e.1 ∈ (handlers env).map Prod.fst := by
    rw [ids_handlers]
    decide
  unfold FromServer at hp
  split_ifs at hp with h3
  · exact Or.inr ⟨_, h3 ▸ own_mem (e := (0x03, levelData env)) (by repeat constructor)⟩
  · exact (hall m.fast m.wide _ hp).imp id exists_of_mem_ids

/-- **A part of a packet does no harm** just if it is spared. -/
theorem harmless_iff_spared {m : Modes} {p : Packet} (hp : FromServer m p) (l : McLocals) :
    Harmless serverSock Tunnel.tracked (mcConnect env l) ⟨p.1 :: part, broken⟩ t ↔ Spared env t p.1 part := by
  obtain ⟨id, payload⟩ := p
  unfold Spared
  rcases handled_of_fromServer env hp with hid | ⟨c, hc⟩
  · have hrun : (mcConnect env l).run (⟨id :: part, broken⟩ : Line) t =
        (dispatch env id l).run (⟨part, broken⟩ : Line) t := by
      rw [mcConnect, run_recvW_line_id]
      rfl
    unfold Harmless
    rw [hrun]
    refine ⟨fun hh => absurd hh.1 ((speaks_dispatch hid l).run _ t), fun hspared => ?_⟩
    rcases hid with rfl | rfl | rfl <;> simp at hspared
  · -- only these handlers have an answer of their own; every other one speaks
    by_cases h3 : id = 0x03
    · subst h3
      rw [harmless_mcConnect_iff (own_mem (e := (0x03, levelData env)) (by repeat constructor))]
      exact iff_of_false not_harmless_levelData (by simp)
    by_cases h14 : id = 0x14
    · subst h14
      rw [harmless_mcConnect_iff (own_mem (e := (0x14, holdThis env)) (by repeat constructor))]
      refine iff_of_true (harmless_of_ignored ?_) (Or.inl rfl)
      exact tame_recvVar _ fun _ _ => tame_recvVar _ fun _ _ => Tame.pure _
    by_cases h21 : id = 0x21
    · subst h21
      rw [harmless_mcConnect_iff (own_mem (e := (0x21, extAddEntity2 env)) (by repeat constructor)),
        harmless_extAddEntity2_iff]
      simp
    by_cases h42 : id = 42
    · subst h42
      rw [harmless_mcConnect_iff (own_mem (e := (42, entityProperty env)) (by repeat constructor))]
      refine iff_of_true (harmless_of_ignored ?_) (Or.inr (Or.inl rfl))
      exact tame_recvVarW _ fun _ _ => tame_recvVarW _ fun _ _ => tame_recvVarW _ fun _ _ => Tame.pure _
    · rw [harmless_mcConnect_iff hc]
      refine iff_of_false (Speaks.not_harmless (speaks_handler env hc (by simp [h3, h14, h21, h42])) _ t) ?_
      simp [h14, h21, h42]

end Part

end Client

namespace Server

variable (env : Env)

/-- The user after the part of a position while hidden. -/
def partUser (part : Bytes) (user : User) : User :=
  { user with
    hx := (host ((env.held.var 1).fill 2 (field part 1 2))).toInt16
    hy := (host ((env.held.var 2).fill 2 (field part 3 2))).toInt16
    hz := (host ((env.held.var 3).fill 2 (field part 5 2))).toInt16
    hyaw := byte ((env.held.var 4).fill 1 (field part 7 1))
    hpitch := byte ((env.held.var 5).fill 1 (field part 8 1)) }

/-- A message that reaches nobody: a command that neither writes to the server nor touches a player, or a
    gimped message that is not sent. -/
def SparedChat (t : Tunnel) (what message : Bytes) : Prop :=
  if isCommand env message then
    (cleanMessage env message).drop 1 ≠ ascii "ptp" ∧ (cleanMessage env message).drop 1 ≠ ascii "roll" ∧
      (commanded env ((cleanMessage env message).drop 1) t).player = t.player
  else t.gimped = true ∧ byte message ≠ 47 ∧ (byte what ≠ 0 ∨ t.gimpN = 1)

/-- **What is spared** when `tunnelServer` gets the part of a packet: what the tunnel keeps to itself, unless it
    changes what is tracked. -/
def Spared (t : Tunnel) (id : UInt8) (part : Bytes) : Prop :=
  id = 0x00 ∨ (id = 0x05 ∧ t.zPlace = true) ∨
    (id = 0x08 ∧ t.hide = true ∧ partUser env part t.user = t.user) ∨
    (id = 0x0d ∧ SparedChat env t ((env.var 1).fill 1 (field part 0 1)) ((env.var 2).fill 64 (field part 1 64)))

theorem speaks_sendMessage (what : UInt8) (message : Bytes) : (sendMessage what message).Speaks tunnelSock :=
  Speaks.packet (List.cons_ne_nil _ _)

/-- **A handler writes what it has received**, and what it has not, unless it may be for the tunnel itself. -/
theorem speaks_handler {e : UInt8 × Code Unit} (he : e ∈ handlers env)
    (hid : e.1 ∉ ([0x05, 0x08, 0x0d] : List UInt8)) : e.2.Speaks tunnelSock := by
  rcases List.mem_append.mp he with he | he
  · obtain ⟨r, hr, rfl⟩ := List.mem_map.mp he
    exact speaks_relay r
  · simp only [List.mem_cons, List.not_mem_nil, or_false] at he
    rcases he with rfl | rfl | rfl | rfl | rfl | rfl | rfl | rfl
    · exact absurd (by simp) hid
    · exact absurd (by simp) hid
    · exact absurd (by simp) hid
    · exact speaks_recvVarW fun _ => speaks_recvVarW fun _ => Speaks.packet (List.cons_ne_nil _ _)
    · exact speaks_recvVarW fun _ => speaks_recvVarW fun _ =>
        Speaks.update_bind (Speaks.packet (List.cons_ne_nil _ _))
    · exact speaks_recvVarW fun _ => speaks_recvVarW fun _ => speaks_recvVarW fun _ => speaks_recvVarW fun _ =>
        Speaks.packet (List.cons_ne_nil _ _)
    · exact speaks_recvVar fun _ => speaks_recvVarW fun _ => speaks_recvVarW fun _ => speaks_recvVarW fun _ =>
        speaks_recvVarW fun _ => speaks_recvVarW fun _ => speaks_recvVar fun _ => speaks_recvVar fun _ =>
        Speaks.packet (List.cons_ne_nil _ _)
    · exact speaks_recvVarW fun _ => speaks_recvVarW fun _ => Speaks.packet (List.cons_ne_nil _ _)

/-- `ptp` places ten blocks. -/
theorem speaks_ptp : (chatCommand env (ascii "ptp")).Speaks tunnelSock := by
  unfold chatCommand
  rw [commandFunc_ptp]
  refine Speaks.bind (Speaks.bind (Speaks.getState_bind fun t => Speaks.bind ?_))
  have hblock : ∀ x y z bid sendpos, (setBlock x y z bid sendpos).Speaks tunnelSock := by
    intro x y z bid sendpos
    unfold setBlock
    refine GoesOn.bind_speaks ?_ (fun _ => Speaks.packet (List.cons_ne_nil _ _))
    unfold onlyIf
    split
    · trivial
    · trivial
  exact Speaks.bind (Speaks.getState_bind fun t' => hblock _ _ _ _ _)

theorem speaks_roll : (chatCommand env (ascii "roll")).Speaks tunnelSock := by
  unfold chatCommand
  rw [commandFunc_roll]
  exact Speaks.bind (Speaks.bind (Speaks.getState_bind fun t => Speaks.packet (List.cons_ne_nil _ _)))

theorem speaks_sendGimp (t : Tunnel) (slot : Nat) (what : UInt8) : (sendGimp t slot what).Speaks tunnelSock := by
  refine Speaks.ite ?_ (speaks_sendMessage _ _)
  rw [List.range_succ_eq_map]
  exact Speaks.bind (speaks_sendMessage _ _)

section Part

variable {env} {part : Bytes} {broken : Bool} {t : Tunnel}

/-- A command but for `ptp` and `roll` does to the players what it does without a line. -/
theorem harmless_chatCommand_iff {text : Bytes} (hptp : text ≠ ascii "ptp") (hroll : text ≠ ascii "roll") (i : Line) :
    Harmless tunnelSock Tunnel.tracked (chatCommand env text) i t ↔ (commanded env text t).player = t.player := by
  have hheard : Spoken Heard (chatCommand env text) :=
    Mild.bind (heard_commandFunc env hptp hroll) fun _ => Mild.onlyIf (heard_tunnelMsg _)
  have hkept := hheard.tame.run_kept i t
  have hout : stream tunnelSock ((chatCommand env text).run i t).out = [] := by
    have htame : (chatCommand env text).Tame Tunnel.keptUser Tunnel.read fun s _ => s ≠ tunnelSock :=
      hheard.tame.mono (fun k => k) (fun s bs h => by rw [h.2]; decide)
    exact (harmless_of_tame htame i t).1
  -- the state does not depend on the input
  have hstate : ((chatCommand env text).run i t).state = commanded env text t := by
    obtain ⟨b, t', out, htakes, -⟩ := (isCommand_commandFunc env text).takes t
    have hline := htakes.run_line i.bytes i.broken
    have hbytes : commanded env text t = t' := congrArg Outcome.state (htakes [])
    rw [List.nil_append] at hline
    unfold chatCommand
    rw [run_bind_of hline, hbytes]
    unfold onlyIf
    split <;> rfl
  unfold Harmless
  rw [hstate] at hkept ⊢
  rw [hout]
  rw [tracked_eq_iff hkept]
  exact and_iff_right rfl

/-- What becomes of the part of a chat message. -/
theorem harmless_said_iff (what message : Bytes) (i : Line) :
    Harmless tunnelSock Tunnel.tracked (said env what message) i t ↔ SparedChat env t what message := by
  unfold SparedChat said
  by_cases hcommand : isCommand env message = true
  · rw [if_pos hcommand, if_pos hcommand]
    by_cases hptp : (cleanMessage env message).drop 1 = ascii "ptp"
    · rw [hptp]
      exact iff_of_false (Speaks.not_harmless (speaks_ptp env) i t) (fun h => h.1 rfl)
    by_cases hroll : (cleanMessage env message).drop 1 = ascii "roll"
    · rw [hroll]
      exact iff_of_false (Speaks.not_harmless (speaks_roll env) i t) (fun h => h.2.1 rfl)
    · rw [harmless_chatCommand_iff hptp hroll]
      exact ⟨fun h => ⟨hptp, hroll, h⟩, fun h => h.2.2⟩
  · rw [if_neg hcommand, if_neg hcommand]
    unfold Harmless
    rw [run_getState_bind]
    by_cases hgimped : t.gimped = true ∧ byte message ≠ 47
    · rw [if_pos hgimped]
      by_cases hwhat : byte what = 0
      · rw [onlyIf_pos hwhat]
        -- a random text is chosen before it turns out that there is only one
        have hrand : ∃ t', (gimpMessage env (byte what)).run i t =
            (if t'.gimpN = 1 then Prog.exit else sendGimp t'
              (256 * ((env.rand t.rands : Int).tmod (t'.gimpN - 1) + 1).toNat)
              (byte what)).run i t' ∧ t'.gimpN = t.gimpN ∧ t'.tracked = t.tracked :=
          ⟨{ t with rands := t.rands + 1 }, rfl, rfl, rfl⟩
        obtain ⟨t', hrun, hgimpN, htracked⟩ := hrand
        rw [hrun, ← htracked, ← hgimpN]
        by_cases hone : t'.gimpN = 1
        · rw [if_pos hone]
          exact iff_of_true ⟨rfl, rfl⟩ ⟨hgimped.1, hgimped.2, Or.inr hone⟩
        · rw [if_neg hone]
          refine iff_of_false (fun hh => (speaks_sendGimp t' _ _).run i t' hh.1) ?_
          rintro ⟨-, -, h | h⟩
          · exact h hwhat
          · exact hone h
      · rw [onlyIf_neg hwhat]
        exact iff_of_true ⟨rfl, rfl⟩ ⟨hgimped.1, hgimped.2, Or.inl hwhat⟩
    · rw [if_neg hgimped]
      exact iff_of_false (fun hh => (speaks_sendMessage _ _).run i t hh.1) (fun h => hgimped ⟨h.1, h.2.1⟩)

theorem harmless_chatMessage_iff :
    Harmless tunnelSock Tunnel.tracked (chatMessage env) ⟨part, broken⟩ t ↔
      SparedChat env t ((env.var 1).fill 1 (field part 0 1)) ((env.var 2).fill 64 (field part 1 64)) := by
  rw [← harmless_said_iff _ _ ⟨(part.drop 1).drop 64, broken⟩]
  unfold Harmless
  rw [chatMessage_eq, run_recvVarW_line, run_recvVarW_line]
  exact Iff.rfl

theorem harmless_setBlockClick_iff :
    Harmless tunnelSock Tunnel.tracked (setBlockClick env) ⟨part, broken⟩ t ↔ t.zPlace = true := by
  unfold Harmless setBlockClick
  simp only [run_recvVarW_line, run_getState_bind]
  by_cases hz : t.zPlace = true
  · rw [if_pos hz]
    refine iff_of_true ?_ hz
    have hpoint : ∀ x y z blocktype, (point x y z blocktype).Tame Tunnel.tracked Tunnel.read fun s _ =>
      s ≠ tunnelSock := by
      intro x y z blocktype
      have htame := (mild_point x y z blocktype).tame.mono (fun k => (k.2, k.1.1.1, k.1.1.2.1, k.1.1.2.2.1,
        k.1.1.2.2.2.1, k.1.1.2.2.2.2.1, k.1.2.2.1, k.1.2.2.2, k.1.2.1.1)) (Q := fun s _ => s ≠ tunnelSock)
        (fun s bs h => by rw [h.2]; decide)
      exact htame
    exact harmless_of_tame (hpoint _ _ _ _) _ t
  · rw [if_neg hz]
    refine iff_of_false (fun hh => Speaks.run ?_ _ t hh.1) hz
    exact Speaks.packet (List.cons_ne_nil _ _)

theorem harmless_posUpdate_iff :
    Harmless tunnelSock Tunnel.tracked (posUpdate env) ⟨part, broken⟩ t ↔
      t.hide = true ∧ partUser env part t.user = t.user := by
  unfold Harmless posUpdate
  simp only [run_recvVarW_line, run_getState_bind, List.drop_drop]
  by_cases hhide : t.hide = false
  · rw [if_pos hhide]
    refine iff_of_false (fun hh => Speaks.run ?_ _ t hh.1) (fun h => absurd (hhide.symm.trans h.1) (by decide))
    exact Speaks.update_bind (Speaks.packet (List.cons_ne_nil _ _))
  · rw [if_neg hhide, run_update]
    have htrue : t.hide = true := Bool.eq_true_of_not_eq_false hhide
    refine ⟨fun hh => ⟨htrue, congrArg (fun k => k.2.2.2.2.2.2.2.2) hh.2⟩, fun hh => ⟨rfl, ?_⟩⟩
    show (t.player, t.map, t.mapAlloc, t.lvlx, t.lvly, t.lvlz, t.mapC, t.mapSize, partUser env part t.user) = _
    rw [hh.2]
    rfl

/-- A login writes nothing. -/
theorem harmless_login : Harmless tunnelSock Tunnel.tracked (login env) ⟨part, broken⟩ t := by
  have htame : (login env).Tame Tunnel.tracked Tunnel.read fun s _ => s ≠ tunnelSock := by
    unfold login
    refine tame_recvVarW _ fun _ _ => tame_recvVarW _ fun _ _ => tame_recvVarW _ fun _ _ => ?_
    exact Tame.bind (tame_recvW 1) fun _ =>
      Tame.bind (Tame.update (fun _ => rfl) (fun _ => rfl)) fun _ => Tame.pure _
  exact harmless_of_tame htame _ t

/-- The round of a part is what its handler does. -/
theorem harmless_tunnelServer_iff {id : UInt8} {c : Code Unit} (hc : (id, c) ∈ handlers env) (l : ServerLocals) :
    Harmless tunnelSock Tunnel.tracked (tunnelServer env l) ⟨id :: part, broken⟩ t ↔
      Harmless tunnelSock Tunnel.tracked c ⟨part, broken⟩ t := by
  have hrun : (tunnelServer env l).run (⟨id :: part, broken⟩ : Line) t =
      andThen (c.run (⟨part, broken⟩ : Line) t) (fun _ => pure l) := by
    rw [tunnelServer, run_recvW_line_id]
    show (dispatch env id l).run _ t = _
    rw [dispatch_of_mem hc, run_bind]
  unfold Harmless
  rw [hrun]
  generalize c.run (⟨part, broken⟩ : Line) t = o
  obtain ⟨r, i', t', out⟩ := o
  cases r with
  | none => exact Iff.rfl
  | some a =>
      show (stream tunnelSock (out ++ []) = [] ∧ _) ↔ _
      rw [List.append_nil]
      exact Iff.rfl

variable (env) in
/-- A packet that the loop is written for has a handler, or is the login. -/
theorem handled_of_fromClient {p : Packet} (hp : FromClient p) : p.1 = 0x00 ∨ ∃ c, (p.1, c) ∈ handlers env := by
  have hall : ∀ e ∈ clientPackets, e.1 = 0x00 ∨ e.1 ∈ (handlers env).map Prod.fst := by
    rw [ids_handlers]
    decide
  exact (hall _ hp).imp id exists_of_mem_ids

/-- **A part of a packet does no harm** just if it is spared. -/
theorem harmless_iff_spared {p : Packet} (hp : FromClient p) {l : ServerLocals}
    (hlogin : p.1 = 0x00 → l.fucked = false) :
    Harmless tunnelSock Tunnel.tracked (tunnelServer env l) ⟨p.1 :: part, broken⟩ t ↔ Spared env t p.1 part := by
  obtain ⟨id, payload⟩ := p
  unfold Spared
  rcases handled_of_fromClient env hp with rfl | ⟨c, hc⟩
  · have hrun : (tunnelServer env l).run (⟨0x00 :: part, broken⟩ : Line) t =
        (login env).run (⟨part, broken⟩ : Line) t := by
      rw [tunnelServer, run_recvW_line_id, ← dispatch_login env (hlogin rfl)]
      rfl
    refine iff_of_true ?_ (Or.inl rfl)
    unfold Harmless
    rw [hrun]
    exact harmless_login
  · by_cases h5 : id = 0x05
    · subst h5
      rw [harmless_tunnelServer_iff (own_mem (e := (0x05, setBlockClick env)) (by repeat constructor)),
        harmless_setBlockClick_iff]
      simp
    by_cases h8 : id = 0x08
    · subst h8
      rw [harmless_tunnelServer_iff (own_mem (e := (0x08, posUpdate env)) (by repeat constructor)),
        harmless_posUpdate_iff]
      simp
    by_cases hd : id = 0x0d
    · subst hd
      rw [harmless_tunnelServer_iff (own_mem (e := (0x0d, chatMessage env)) (by repeat constructor)),
        harmless_chatMessage_iff]
      simp
    · have h0 : id ≠ 0x00 := by
        rintro rfl
        have hmem : (0x00 : UInt8) ∈ (handlers env).map Prod.fst := List.mem_map_of_mem (f := Prod.fst) hc
        rw [ids_handlers] at hmem
        exact absurd hmem (by decide)
      rw [harmless_tunnelServer_iff hc]
      refine iff_of_false (Speaks.not_harmless (speaks_handler env hc (by simp [h5, h8, hd])) _ t) ?_
      simp [h0, h5, h8, hd]

end Part

end Server

/-! ## Streams that break off -/

/-- The bytes of a packet. -/
def Packet.bytes (p : Packet) : Bytes := p.1 :: p.2

/-- The packets of the server are complete in the modes of their moment. -/
def CompleteFromServer (env : Env) : List (Tunnel → Tunnel) → McLocals → List Packet → Tunnel → Prop :=
  GoodRun (fun _ t p => FromServer t.modes p) (mcConnect env) Packet.bytes

/-- The packets of the client are complete, and only the first login is one. -/
def CompleteFromClient (env : Env) : List (Tunnel → Tunnel) → ServerLocals → List Packet → Tunnel → Prop :=
  GoodRun (fun l _ p => FromClient p ∧ (p.1 = 0x00 → l.fucked = false)) (tunnelServer env) Packet.bytes

/-- **Nothing is invented on a broken connection** just if the incomplete packet is spared. Complete packets are
    followed by a part of one more, and then by the end of the stream or an error; the condition is about the
    state in which the part arrives, if the program has not ended before. -/
theorem nothingInvented_iff_spared (env : Env) (hz : env.zlib.EndDocumented) (fs : List (Tunnel → Tunnel))
    (f : Tunnel → Tunnel) (ps : List Packet) (hlen : fs.length = ps.length) (p : Packet) (n : Nat) (broken : Bool)
    (t : Tunnel) :
    (∀ l, CompleteFromServer env (fs ++ [f]) l (ps ++ [p]) t →
      (NothingInvented (mcConnect env) serverSock Tunnel.tracked fs f l (ps.map Packet.bytes) (p.1 :: p.2.take n)
          broken t ↔
        ∀ l' i' t' out, (rounds (mcConnect env) fs l).run (ps.map Packet.bytes).flatten t = ⟨some l', i', t', out⟩ →
          Client.Spared env (f t') p.1 (p.2.take n))) ∧
    (∀ l, CompleteFromClient env (fs ++ [f]) l (ps ++ [p]) t →
      (NothingInvented (tunnelServer env) tunnelSock Tunnel.tracked fs f l (ps.map Packet.bytes)
          (p.1 :: p.2.take n) broken t ↔
        ∀ l' i' t' out, (rounds (tunnelServer env) fs l).run (ps.map Packet.bytes).flatten t =
            ⟨some l', i', t', out⟩ →
          Server.Spared env (f t') p.1 (p.2.take n))) := by
  constructor
  · intro l hcomplete
    -- every complete packet is taken, so that only the part of one can do harm
    have htaken : ∀ (l : McLocals) (t : Tunnel) (p : Packet), FromServer t.modes p →
        ∃ r t' out, (mcConnect env l).Takes p.bytes t r t' out := by
      intro l t p hp
      obtain ⟨r, t', out, htakes, -⟩ := Client.takesPacket env hz t l hp
      exact ⟨r, t', out, takes_mcConnect htakes⟩
    obtain ⟨hall, hlast⟩ := goodRun_snoc htaken hlen hcomplete
    rw [nothingInvented_iff hall]
    refine forall_congr' fun l' => forall_congr' fun i' => forall_congr' fun t' => forall_congr' fun out =>
      forall_congr' fun hrun => ?_
    exact Client.harmless_iff_spared (hlast l' i' t' out hrun) l'
  · intro l hcomplete
    have htaken : ∀ (l : ServerLocals) (t : Tunnel) (p : Packet), FromClient p ∧ (p.1 = 0x00 → l.fucked = false) →
        ∃ r t' out, (tunnelServer env l).Takes p.bytes t r t' out := by
      intro l t p hp
      obtain ⟨r, t', out, htakes, -⟩ := Server.takesPacket env t hp.1 hp.2
      exact ⟨r, t', out, takes_tunnelServer htakes⟩
    obtain ⟨hall, hlast⟩ := goodRun_snoc htaken hlen hcomplete
    rw [nothingInvented_iff hall]
    refine forall_congr' fun l' => forall_congr' fun i' => forall_congr' fun t' => forall_congr' fun out =>
      forall_congr' fun hrun => ?_
    obtain ⟨hp, hlogin⟩ := hlast l' i' t' out hrun
    exact Server.harmless_iff_spared hp hlogin

/-- A ping, and the id of a packet that is ignored. -/
theorem nothingInvented_iff_spared_ignored :
    NothingInvented (mcConnect {}) serverSock Tunnel.tracked [id] id {} [[0x01]] [0x14] false {} := by
  have hmodes : ∀ fast wide : Bool, FromServer ⟨fast, wide⟩ (0x14, [0, 0]) := by decide
  have hcomplete : CompleteFromServer {} ([id] ++ [id]) {} ([(0x01, [])] ++ [(0x14, [0, 0])]) {} :=
    ⟨by decide, fun l' t' out _ => ⟨hmodes _ _, fun _ _ _ _ => trivial⟩⟩
  have h := (nothingInvented_iff_spared {} (fun _ _ _ => Or.inl rfl) [id] id [(0x01, [])] rfl
    (0x14, [0, 0]) 0 false {}).1
    {} hcomplete
  exact h.mpr (fun _ _ _ _ _ => Or.inl rfl)

/-- **The id of a block and no more**: the client gets a whole packet, made of what the memory held. -/
theorem block_invented : ¬ ∀ (env : Env) (l : McLocals) (t : Tunnel) (p : Packet) (n : Nat),
    env.zlib.EndDocumented → CompleteFromServer env [id] l [p] t → n < p.2.length →
      NothingInvented (mcConnect env) serverSock Tunnel.tracked [] id l [] (p.1 :: p.2.take n) false t := by
  intro hall
  have h := hall {} {} {} (0x06, List.replicate 7 0) 0 (fun _ _ _ => Or.inl rfl)
    ⟨by decide, fun _ _ _ _ => trivial⟩ (by decide)
  exact absurd h.1 (by decide)

end LavaTunnel
