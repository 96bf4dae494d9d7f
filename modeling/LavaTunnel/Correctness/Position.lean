import LavaTunnel.Correctness.Chat
import LavaTunnel.Correctness.ClientHandlers
import LavaTunnel.Wire.Turns

/-!
# `LavaTunnel.Correctness.Position` — where the server has the user

`user` is the position known to the server. A position packet of the client changes both, and a hidden one
neither. But a block is placed with `tunnelMove`, which tells the server a position and leaves `user` alone. So
`user` is right as long as nobody walks: no 'ptp', no plotmotion, no paste, and no cuboid without a speed limit.

The threads take turns: each handler is one step. In the middle of a handler `user` may be ahead of the packet.
-/

namespace LavaTunnel

open Wire Wire.Prog

/-! ## The position of the user -/

/-- The position in `user`. -/
def User.position (u : User) : Int16 × Int16 × Int16 × UInt8 × UInt8 := (u.x, u.y, u.z, u.yaw, u.pitch)

/-- The position in a packet: it follows the id and the player. -/
def positionIn (p : Bytes) : Int16 × Int16 × Int16 × UInt8 × UInt8 :=
  ((host (field p 2 2)).toInt16, (host (field p 4 2)).toInt16, (host (field p 6 2)).toInt16, byte (field p 8 1),
    byte (field p 9 1))

/-- The last position packet among what has been sent to the server. -/
def lastPosition (sent : List (Socket × Bytes)) : Option Bytes :=
  ((sentTo tunnelSock sent).filter (fun p => p.head? = some 0x08)).getLast?

/-- The teleport that takes the client to the position in a packet. -/
def teleportThere (p : Bytes) : Socket × Bytes := (serverSock, 0x08 :: 255 :: p.drop 2)

/-- Every thread before its first turn. -/
def beginning (t : Tunnel) : Turns ThreadId Tunnel Socket Locals where
  state := t
  locals
    | .main => .main
    | .tunnelServer => .tunnelServer {}
    | .mcConnect => .connecting
    | .builder => .builder .paste

/-! ## Who walks -/

/-- The player id of a packet that arrives. -/
def arrivingPid (env : Env) (input : Bytes) : Int := (byte (env.fill 1 ((input.drop 1).take 1))).toNat

/-- The text of a chat message that arrives. -/
def arrivingText (env : Env) (input : Bytes) : Bytes := (env.var 2).fill 64 ((input.drop 2).take 64)

/-- The builder is about to place a block, and to send the position. -/
def BuilderWalks (env : Env) (t : Tunnel) : Pc → Prop
  | .pasteLoop p l => l.inside (pasteBounds t p) = true ∧ l.level = .z ∧ t.paste.halt = false ∧
      env.pasteByte p.pastebuf p.bufLoop ≠ 0
  | .cuboidLoop _ l => l.inside (cuboidBounds t) = true ∧ l.level = .z ∧ t.cuboid.halt = false ∧
      t.map (calculateOffset t l.vx l.vy l.vz) ≠ t.cuboid.block ∧ t.cuboid.zlimit = false
  | _ => False

/-- The turn walks the user: 'ptp' on the console or in the chat, a position of a player that is plotmotioned, or
    a block of the builder. -/
def Walks (env : Env) (t : Tunnel) (input : Bytes) : Locals → Prop
  | .main => byte (input.take 64) = 39 ∧ cstr ((input.take 64).drop 1) = ascii "ptp"
  | .tunnelServer _ => byte input = 0x0d ∧ Server.isCommand env (arrivingText env input) = true ∧
      (Server.cleanMessage env (arrivingText env input)).drop 1 = ascii "ptp"
  | .connecting => False
  | .mcConnect _ => (byte input = 0x08 ∨ byte input = 0x09 ∨ byte input = 0x0a) ∧
      (t.player (arrivingPid env input)).mode = 2
  | .builder pc => BuilderWalks env t pc

/-! ## What a turn does to the position -/

/-- The turn leaves the position, or tells the server the one it leaves. -/
def Follows (t t' : Tunnel) (sent : List (Socket × Bytes)) : Prop :=
  t'.user.position = t.user.position ∧ lastPosition sent = none ∨
    ∃ p, lastPosition sent = some p ∧ p.length = 10 ∧ t'.user.position = positionIn p

/-- A packet that is no position for the server. -/
def Still (s : Socket) (bs : Bytes) : Prop := s = tunnelSock → bs.head? ≠ some 0x08

theorem still_serverSock (bs : Bytes) : Still serverSock bs := fun hs => absurd hs (by decide)

theorem lastPosition_append (sent sent' : List (Socket × Bytes)) :
    lastPosition (sent ++ sent') = (lastPosition sent').or (lastPosition sent) :=
  getLast?_sentTo_append tunnelSock (fun p => p.head? = some 0x08) sent sent'

theorem lastPosition_still {sent : List (Socket × Bytes)} (h : ∀ e ∈ sent, Still e.1 e.2) :
    lastPosition sent = none := by
  unfold lastPosition
  rw [List.getLast?_eq_none_iff, List.filter_eq_nil_iff]
  intro p hp
  simpa using h _ (mem_sentTo.mp hp) rfl

section Turn

variable {α : Type} {c : Code α} {i : Bytes} {t : Tunnel}

/-- Code that sends no position and leaves the one of the user. -/
theorem follows_of_within (h : c.Within (fun s => s.user.position = t.user.position) Still) :
    Follows t (c.run i t).state (c.sent i t) := by
  obtain ⟨hstate, hsent⟩ := h.run i rfl
  exact Or.inl ⟨hstate, lastPosition_still hsent⟩

theorem Calmly.within (h : Calmly c) : c.Within (fun s => s.user.position = t.user.position) Still := by
  refine Tame.within (h.mono id (fun s bs hbs => hbs.2)) fun s s' hs hsame => ?_
  rw [show s'.user = s.user from congrArg Prod.fst hs]
  exact hsame

theorem follows_of_calmly (h : Calmly c) : Follows t (c.run i t).state (c.sent i t) :=
  follows_of_within (Calmly.within h)

/-- What follows a received field. -/
theorem follows_recvVarW (env : Env) {n : Nat} {f : Bytes → Code α}
    (h : ∀ (v i : Bytes), v.length = n → Follows t ((f v).run i t).state ((f v).sent i t)) :
    Follows t ((recvVarW env n >>= f).run i t).state ((recvVarW env n >>= f).sent i t) := by
  rw [run_recvVarW_bind, sent_recvVarW_bind]
  exact h _ _ (length_fill env n _)

/-- A result makes no difference. -/
theorem follows_bind_pure {β : Type} {g : α → β} (h : Follows t (c.run i t).state (c.sent i t)) :
    Follows t ((do let a ← c; pure (g a) : Code β).run i t).state ((do let a ← c; pure (g a) : Code β).sent i t) := by
  rw [sent_bind_pure, run_bind_pure]
  exact h

end Turn

/-! ## `mcConnect` -/

/-- The position of the user and the modes of the players. -/
def Standing (t s : Tunnel) : Prop :=
  s.user.position = t.user.position ∧ ∀ j, (s.player j).mode = (t.player j).mode

theorem within_recvVarW (env : Env) {α : Type} {I : Tunnel → Prop} {P : Socket → Bytes → Prop} {n : Nat}
    {f : Bytes → Code α} (h : ∀ v, (f v).Within I P) : (recvVarW env n >>= f).Within I P := by
  have hrecv : (recvVarW env n).Tame id id P := by
    rw [← bind_pure' (recvVarW env n)]
    exact tame_recvVarW _ (fun _ _ => Tame.pure _)
  refine Within.bind (hrecv.within fun s s' hs hI => ?_) h
  rw [show s' = s from hs]
  exact hI

namespace Client

variable {env : Env} {t : Tunnel}

/-- A player that is not plotmotioned is at most followed. -/
theorem within_follow {i : Int} (h : (t.player i).mode ≠ 2) : (follow i).Within (Standing t) Still := by
  refine Within.getState_bind fun s hs => ?_
  refine Within.bind (Within.onlyIf fun _ => Within.packet (still_serverSock _)) fun _ => ?_
  refine Within.onlyIf fun htwo => ?_
  exact absurd ((hs.2 i).symm.trans htwo) h

/-- A player moves, in the same mode. -/
theorem standing_setPlayer {i : Int} {f : Player → Player} (hf : ∀ p, (f p).mode = p.mode) :
    ∀ s, Standing t s → Standing t (s.setPlayer i f) := by
  intro s hs
  refine ⟨hs.1, fun j => ?_⟩
  rw [kept_setPlayer Player.mode hf s i j]
  exact hs.2 j

/-- A player moves, the packet is passed on, and the player is at most followed. -/
theorem within_move {i : Int} {f : Player → Player} {cs : List Call} (hf : ∀ p, (f p).mode = p.mode)
    (h : (t.player i).mode ≠ 2) : (do
      update (fun t => t.setPlayer i f)
      packet serverSock cs
      follow i : Code Unit).Within (Standing t) Still :=
  Within.bind (Within.update (standing_setPlayer hf)) fun _ =>
    Within.bind (Within.packet (still_serverSock _)) fun _ => within_follow h

/-- A handler that begins with the player id. -/
theorem follows_of_pid {k : Bytes → Code Unit} {i : Bytes}
    (hk : ∀ pid : Bytes, (t.player (byte pid).toNat).mode ≠ 2 → (k pid).Within (Standing t) Still)
    (h : (t.player (byte (env.fill 1 (i.take 1))).toNat).mode ≠ 2) :
    Follows t ((recvVarW env 1 >>= k).run i t).state ((recvVarW env 1 >>= k).sent i t) := by
  rw [run_recvVarW_bind, sent_recvVarW_bind]
  obtain ⟨hstate, hsent⟩ := (hk _ h).run (i.drop 1) ⟨rfl, fun _ => rfl⟩
  exact Or.inl ⟨hstate.1, lastPosition_still hsent⟩

theorem follows_posAndOrientation {i : Bytes} (h : (t.player (byte (env.fill 1 (i.take 1))).toNat).mode ≠ 2) :
    Follows t ((posAndOrientation env).run i t).state ((posAndOrientation env).sent i t) := by
  have hposition : ∀ width coord, Follows t ((position env width coord).run i t).state
      ((position env width coord).sent i t) := by
    intro width coord
    refine follows_of_pid (fun pid hpid => ?_) h
    refine within_recvVarW _ fun x => within_recvVarW _ fun y => within_recvVarW _ fun z =>
      within_recvVarW _ fun yaw => within_recvVarW _ fun pitch => ?_
    exact within_move (fun _ => rfl) hpid
  show Follows t ((if t.negotiated CPE.extEntityPos then _ else _ : Code Unit).run i t).state
    ((if t.negotiated CPE.extEntityPos then _ else _ : Code Unit).sent i t)
  split
  · exact hposition 4 _
  · exact hposition 2 _

theorem follows_posOffsetUpdate {i : Bytes} (h : (t.player (byte (env.fill 1 (i.take 1))).toNat).mode ≠ 2) :
    Follows t ((posOffsetUpdate env).run i t).state ((posOffsetUpdate env).sent i t) := by
  refine follows_of_pid (fun pid hpid => ?_) h
  refine within_recvVarW _ fun x => within_recvVarW _ fun y => within_recvVarW _ fun z =>
    within_recvVarW _ fun yaw => within_recvVarW _ fun pitch => ?_
  exact within_move (fun _ => rfl) hpid

theorem follows_posUpdate {i : Bytes} (h : (t.player (byte (env.fill 1 (i.take 1))).toNat).mode ≠ 2) :
    Follows t ((posUpdate env).run i t).state ((posUpdate env).sent i t) := by
  refine follows_of_pid (fun pid hpid => ?_) h
  refine within_recvVarW _ fun x => within_recvVarW _ fun y => within_recvVarW _ fun z => ?_
  exact within_move (fun _ => rfl) hpid

/-- **No packet of the server** walks the user, but the positions of a player that is plotmotioned. -/
theorem follows_dispatch {id : UInt8} {i : Bytes} (l : McLocals)
    (h : (id = 0x08 ∨ id = 0x09 ∨ id = 0x0a) → (t.player (byte (env.fill 1 (i.take 1))).toNat).mode ≠ 2) :
    Follows t ((dispatch env id l).run i t).state ((dispatch env id l).sent i t) := by
  by_cases h8 : id = 0x08
  · subst h8
    rw [dispatch_of_mem (own_mem (e := (0x08, posAndOrientation env)) (by repeat constructor))]
    exact follows_bind_pure (follows_posAndOrientation (h (Or.inl rfl)))
  by_cases h9 : id = 0x09
  · subst h9
    rw [dispatch_of_mem (own_mem (e := (0x09, posOffsetUpdate env)) (by repeat constructor))]
    exact follows_bind_pure (follows_posOffsetUpdate (h (Or.inr (Or.inl rfl))))
  by_cases ha : id = 0x0a
  · subst ha
    rw [dispatch_of_mem (own_mem (e := (0x0a, posUpdate env)) (by repeat constructor))]
    exact follows_bind_pure (follows_posUpdate (h (Or.inr (Or.inr rfl))))
  · exact follows_of_calmly (calmly_dispatch env ⟨h8, h9, ha⟩ l)

end Client

/-- The id of a packet, and what is sent after it. -/
theorem sent_recv_id {α : Type} (env : Env) (gone : Code α) (dispatch : UInt8 → Code α) (id : UInt8) (i : Bytes)
    (t : Tunnel) :
    (do let r ← recvW 1
        if r.1 < 1 then gone else dispatch (byte (env.fill 1 r.2))).sent (id :: i) t = (dispatch id).sent i t := by
  rw [sent_recvW_bind]
  rfl

theorem follows_mcConnect {env : Env} {t : Tunnel} {input : Bytes} {l : McLocals}
    (h : ¬ Walks env t input (.mcConnect l)) :
    Follows t ((mcConnect env l).run input t).state ((mcConnect env l).sent input t) := by
  cases input with
  | nil =>
      -- the server has gone
      rw [mcConnect, run_recvW_bind, sent_recvW_bind]
      exact follows_of_calmly Client.calmly_disconnected
  | cons id i =>
      rw [mcConnect, run_recv_id env Client.disconnected (fun id => Client.dispatch env id l),
        sent_recv_id env Client.disconnected (fun id => Client.dispatch env id l)]
      exact Client.follows_dispatch l (fun hid hmode => h ⟨hid, hmode⟩)

/-! ## `tunnelServer` -/

namespace Server

variable {env : Env} {t : Tunnel} {i : Bytes}

/-- A position of the client: hidden, it is kept elsewhere, and otherwise it is the one that is sent. -/
theorem follows_posUpdate : Follows t ((posUpdate env).run i t).state ((posUpdate env).sent i t) := by
  unfold posUpdate
  refine follows_recvVarW _ fun pid _ hpid => follows_recvVarW _ fun x _ hx => follows_recvVarW _ fun y _ hy =>
    follows_recvVarW _ fun z _ hz => follows_recvVarW _ fun yaw _ hyaw =>
      follows_recvVarW _ fun pitch j hpitch => ?_
  obtain ⟨a, rfl⟩ := List.length_eq_one_iff.mp hpid
  obtain ⟨x₁, x₂, rfl⟩ := List.length_eq_two.mp hx
  obtain ⟨y₁, y₂, rfl⟩ := List.length_eq_two.mp hy
  obtain ⟨z₁, z₂, rfl⟩ := List.length_eq_two.mp hz
  obtain ⟨b, rfl⟩ := List.length_eq_one_iff.mp hyaw
  obtain ⟨c, rfl⟩ := List.length_eq_one_iff.mp hpitch
  show Follows t ((if t.hide = false then _ else _ : Code Unit).run j t).state
    ((if t.hide = false then _ else _ : Code Unit).sent j t)
  split
  · exact Or.inr ⟨[0x08, a, x₁, x₂, y₁, y₂, z₁, z₂, b, c], rfl, rfl, rfl⟩
  · exact Or.inl ⟨rfl, rfl⟩

/-- A message: 'ptp' is the one command that walks. -/
theorem follows_said {what message : Bytes}
    (h : isCommand env message = true → (cleanMessage env message).drop 1 ≠ ascii "ptp") :
    Follows t ((said env what message).run i t).state ((said env what message).sent i t) := by
  cases hc : isCommand env message with
  | false => exact follows_of_calmly (calmly_said env hc)
  | true =>
      unfold said
      rw [if_pos hc]
      exact follows_of_calmly (Spoken.calmly (told_chatCommand env (h hc)))

/-- **No packet of the client** walks the user, but 'ptp'. -/
theorem follows_dispatch {id : UInt8} (l : ServerLocals)
    (h : id = 0x0d → isCommand env ((env.var 2).fill 64 ((i.drop 1).take 64)) = true →
      (cleanMessage env ((env.var 2).fill 64 ((i.drop 1).take 64))).drop 1 ≠ ascii "ptp") :
    Follows t ((dispatch env id l).run i t).state ((dispatch env id l).sent i t) := by
  by_cases h8 : id = 0x08
  · subst h8
    rw [dispatch_of_mem (own_mem (e := (0x08, posUpdate env)) (by repeat constructor))]
    exact follows_bind_pure follows_posUpdate
  by_cases hd : id = 0x0d
  · subst hd
    rw [dispatch_of_mem (own_mem (e := (0x0d, chatMessage env)) (by repeat constructor))]
    refine follows_bind_pure ?_
    rw [chatMessage_eq]
    simp only [run_recvVarW_bind, sent_recvVarW_bind]
    exact follows_said (h rfl)
  · exact follows_of_calmly (calmly_dispatch env ⟨h8, hd⟩ l)

end Server

theorem follows_tunnelServer {env : Env} {t : Tunnel} {input : Bytes} {l : ServerLocals}
    (h : ¬ Walks env t input (.tunnelServer l)) :
    Follows t ((tunnelServer env l).run input t).state ((tunnelServer env l).sent input t) := by
  cases input with
  | nil =>
      -- the client has gone
      rw [tunnelServer, run_recvW_bind, sent_recvW_bind]
      exact follows_of_calmly (Tame.exit : Calmly (Prog.exit : Code ServerLocals))
  | cons id i =>
      rw [tunnelServer, run_recv_id env Prog.exit (fun id => Server.dispatch env id l),
        sent_recv_id env Prog.exit (fun id => Server.dispatch env id l)]
      refine Server.follows_dispatch l fun hid hcommand hptp => h ⟨hid, ?_, ?_⟩
      · show Server.isCommand env ((env.var 2).fill 64 (((id :: i).drop 2).take 64)) = true
        exact hcommand
      · exact hptp

/-! ## The console and the builder -/

theorem follows_console {env : Env} {t : Tunnel} {input : Bytes} (h : ¬ Walks env t input .main) :
    Follows t ((console env).run input t).state ((console env).sent input t) := by
  show Follows t ((consoleLine env (input.take 64)).run (input.drop 64) t).state
    ((consoleLine env (input.take 64)).sent (input.drop 64) t)
  by_cases hptp : cstr ((input.take 64).drop 1) = ascii "ptp"
  · have hnone : consoleLine env (input.take 64) = pure () := onlyIf_neg (fun hbyte => h ⟨hbyte, hptp⟩) _
    rw [hnone]
    exact follows_of_calmly (Tame.pure ())
  · exact follows_of_calmly (Spoken.calmly (told_consoleLine env hptp))

/-- A call that does not send the position. -/
def CallStands : BuilderCall → Prop
  | .setBlock _ _ _ _ sendpos => sendpos = false
  | .tunnelMsg _ => True

theorem within_perform {I : Tunnel → Prop} {call : BuilderCall} (h : CallStands call) :
    (perform call).Within I Still := by
  cases call with
  | tunnelMsg msg => exact Within.packet (still_serverSock _)
  | setBlock x y z bid sendpos =>
      refine Within.bind (Within.onlyIf fun hsend => ?_) fun _ => Within.packet fun _ hhead => ?_
      · exact absurd (h.symm.trans hsend) (by decide)
      · exact absurd (Option.some.inj hhead) (by decide)

theorem callStands_pasteLeave (p : Pasting) (l : Loops) : ∀ call ∈ (pasteLeave p l).calls, CallStands call := by
  unfold pasteLeave
  cases l.leave with
  | none => exact fun call hcall => absurd hcall List.not_mem_nil
  | some l' => exact fun call hcall => absurd hcall List.not_mem_nil

theorem callStands_cuboidLeave (hidden : Bool) (l : Loops) :
    ∀ call ∈ (cuboidLeave hidden l).calls, CallStands call := by
  unfold cuboidLeave
  cases l.leave with
  | none =>
      intro call hcall
      obtain rfl := List.mem_singleton.mp hcall
      trivial
  | some l' => exact fun call hcall => absurd hcall List.not_mem_nil

/-- **Where it does not walk** the builder sends no position. -/
theorem callStands_iteration {env : Env} {t : Tunnel} {pc : Pc} (h : ¬ BuilderWalks env t pc) :
    ∀ call ∈ (builderIteration env t pc).calls, CallStands call := by
  have hnone : ∀ call ∈ ([] : List BuilderCall), CallStands call := fun call hcall => absurd hcall List.not_mem_nil
  -- only the bodies of the paste and of the cuboid call something that walks
  cases pc with
  | paste =>
      show ∀ call ∈ (if t.paste.start then pasteStart env t else { next := .copy }).calls, CallStands call
      split
      · unfold pasteStart
        cases t.files (cstr t.paste.chunkName) with
        | none => exact hnone
        | some chunk => exact hnone
      · exact hnone
  | pasteLoop p l =>
      show ∀ call ∈ (pasteIteration env t p l).calls, CallStands call
      unfold pasteIteration
      split_ifs with hinside hlevel hhalt
      · exact callStands_pasteLeave p l
      · -- the innermost body
        have hair : env.pasteByte p.pastebuf p.bufLoop = 0 := by
          by_contra hblock
          exact h ⟨hinside, hlevel, by simpa using hhalt, hblock⟩
        show ∀ call ∈ pasteBody env p l, CallStands call
        unfold pasteBody
        rw [if_neg (by simp [hair])]
        exact hnone
      · exact hnone
      · exact callStands_pasteLeave p l
  | copy =>
      show ∀ call ∈ (if t.copy.start then copyStart t else { next := .cuboid }).calls, CallStands call
      split
      · simp [copyStart, CallStands]
      · exact hnone
  | copyLoop copyBuf l =>
      show ∀ call ∈ (copyIteration t copyBuf l).calls, CallStands call
      unfold copyIteration
      split
      · exact hnone
      · cases l.leave with
        | none => simp [CallStands]
        | some l' => exact hnone
  | copyWrite copyBuf =>
      show ∀ call ∈ (copyFinish env copyBuf).calls, CallStands call
      simp [copyFinish, CallStands]
  | cuboid =>
      show ∀ call ∈ (if t.cuboid.start ∧ t.cuboid.type = 0 then cuboidStart t else { next := .paste }).calls,
        CallStands call
      split
      · exact hnone
      · exact hnone
  | cuboidLoop hidden l =>
      show ∀ call ∈ (cuboidIteration t hidden l).calls, CallStands call
      unfold cuboidIteration
      split_ifs with hinside hhalt hlevel
      · exact callStands_cuboidLeave hidden l
      · -- the innermost body: no block, or one with a speed limit
        show ∀ call ∈ cuboidBody t l, CallStands call
        unfold cuboidBody
        split
        · rename_i hblock
          intro call hcall
          obtain rfl := List.mem_singleton.mp hcall
          cases hlimit : t.cuboid.zlimit with
          | true => rfl
          | false => exact absurd ⟨hinside, hlevel, by simpa using hhalt, hblock, hlimit⟩ h
        · exact hnone
      · exact hnone
      · exact callStands_cuboidLeave hidden l
  | crashed => exact hnone

theorem follows_builder {env : Env} {t : Tunnel} {input : Bytes} {pc : Pc} (h : ¬ Walks env t input (.builder pc)) :
    Follows t ((builder env pc).run input t).state ((builder env pc).sent input t) := by
  have hcalls := callStands_iteration h
  have hunmoved := unmoved_builderIteration env t pc
  refine follows_of_within (c := afterwards (builderIteration env t pc)) ?_
  refine Within.bind (Within.update fun s hs => ?_) fun _ =>
    Within.bind (Within.forEach fun call hcall => ?_) fun _ => ?_
  · have hsame := congrArg Prod.fst (hunmoved s).1
    exact (congrArg User.position hsame).trans hs
  · exact within_perform (hcalls call hcall)
  · cases (builderIteration env t pc).next <;> trivial

/-- **One turn** in which nobody walks. -/
theorem follows_round {env : Env} {t : Tunnel} {input : Bytes} {i : ThreadId} {l : Locals}
    (h : ¬ Walks env t input l) : Follows t ((round env i l).run input t).state ((round env i l).sent input t) := by
  have hstays : Follows t ((pure l : Code Locals).run input t).state ((pure l : Code Locals).sent input t) :=
    follows_of_calmly (Tame.pure l)
  -- a thread on another thread's code does nothing
  cases i with
  | main =>
      cases l with
      | main => exact follows_bind_pure (follows_console h)
      | _ => exact hstays
  | tunnelServer =>
      cases l with
      | tunnelServer l => exact follows_bind_pure (follows_tunnelServer h)
      | _ => exact hstays
  | mcConnect =>
      cases l with
      | connecting => exact follows_bind_pure (follows_of_calmly calmly_mcLogin)
      | mcConnect l => exact follows_bind_pure (follows_mcConnect h)
      | _ => exact hstays
  | builder =>
      cases l with
      | builder pc => exact follows_bind_pure (follows_builder h)
      | _ => exact hstays

/-! ## The run -/

/-- `user` is the position in the packet, and 'back' and 'cancel' take the client there. -/
structure KnownAs (t : Tunnel) (p : Bytes) : Prop where
  user : t.user.position = positionIn p
  back : cmdBack.sent ([] : Bytes) t = [teleportThere p]
  cancel : t.hide = true → teleportThere p ∈ cmdCancel.sent ([] : Bytes) t

/-- The server has the user where the tunnel thinks he is. -/
def PositionKnown (c : Turns ThreadId Tunnel Socket Locals) : Prop :=
  ∀ p, lastPosition c.sent = some p → p.length = 10 ∧ c.state.user.position = positionIn p

/-- A coordinate in a packet goes out as it came. -/
theorem wire_host {v : Bytes} (h : v.length = 2) : wire (host v).toInt16 = v := by
  unfold wire
  rw [UInt16.toUInt16_toInt16]
  exact bytesOf_htons_host h

/-- The teleport to the position of the user. -/
theorem sent_teleport {t : Tunnel} {p : Bytes} (hlen : p.length = 10) (h : t.user.position = positionIn p)
    (i : Bytes) (s : Tunnel) :
    (tunnelTeleport t.user.x t.user.y t.user.z t.user.yaw t.user.pitch).sent i s = [teleportThere p] := by
  unfold User.position positionIn at h
  simp only [Prod.mk.injEq] at h
  obtain ⟨hx, hy, hz, hyaw, hpitch⟩ := h
  have hfield : ∀ k, k + 2 ≤ 10 → wire (host (field p k 2)).toInt16 = field p k 2 := by
    intro k hk
    exact wire_host (length_field (by omega))
  -- the packet carries the fields that the position was taken from
  have hsplit : p.drop 2 = field p 2 2 ++ (field p 4 2 ++ (field p 6 2 ++ (field p 8 1 ++ field p 9 1))) := by
    have hflat : (fieldsFrom p 2 [2, 2, 2, 1, 1]).flatten = p.drop 2 := flatten_fieldsFrom _ hlen
    rw [← hflat]
    simp [fieldsFrom]
  have hbyte : ∀ k, k + 1 ≤ 10 → [byte (field p k 1)] = field p k 1 := by
    intro k hk
    have hone : (field p k 1).length = 1 := length_field (by omega)
    obtain ⟨b, hb⟩ := List.length_eq_one_iff.mp hone
    rw [hb]
    rfl
  show [(serverSock, ([Call.sendW [0x08], .sendW [255], .sendW (wire t.user.x), .sendW (wire t.user.y),
    .sendW (wire t.user.z), .sendW [t.user.yaw], .sendW [t.user.pitch]] : List Call).flatMap Call.bytes)] = _
  rw [hx, hy, hz, hyaw, hpitch, hfield 2 (by decide), hfield 4 (by decide), hfield 6 (by decide), hbyte 8 (by decide),
    hbyte 9 (by decide)]
  unfold teleportThere
  rw [hsplit]
  simp

theorem PositionKnown.knownAs {c : Turns ThreadId Tunnel Socket Locals} (h : PositionKnown c) {p : Bytes}
    (hp : lastPosition c.sent = some p) : KnownAs c.state p := by
  obtain ⟨hlen, huser⟩ := h p hp
  refine ⟨huser, sent_teleport hlen huser [] c.state, fun hhide => ?_⟩
  have hfirst := sent_teleport hlen huser [] c.state
  show teleportThere p ∈ (do
    onlyIf (c.state.hide = true) (do
      tunnelTeleport c.state.user.x c.state.user.y c.state.user.z c.state.user.yaw c.state.user.pitch
      update (fun t => { t with hide := false }))
    update cancelled
    tunnelMsg (lava "Cancled all toggles/actions.") : Code Unit).sent [] c.state
  rw [onlyIf_pos hhide, sent_bind, sent_bind, hfirst]
  exact List.mem_append_left _ (List.mem_append_left _ List.mem_cons_self)

/-- **A turn** in which nobody walks keeps the position known. -/
theorem positionKnown_turn {env : Env} (c : Turns ThreadId Tunnel Socket Locals) (i : ThreadId) (input : Bytes)
    (h : PositionKnown c) (hwalks : ¬ Walks env c.state input (c.locals i)) :
    PositionKnown ((tunnel env).turn c i input) := by
  have hturn : (tunnel env).turn c i input = c ∨ _ := turn_cases c i input
  rcases hturn with hsame | ⟨hstate, hsent⟩
  · rw [hsame]
    exact h
  · intro p hp
    rw [hsent, lastPosition_append] at hp
    rw [hstate]
    rcases follows_round (i := i) hwalks with ⟨hstays, hnone⟩ | ⟨q, hq, hlen, hmoved⟩
    · -- the last position is an earlier one
      rw [show lastPosition (((tunnel env).body i (c.locals i)).sent input c.state) = none from hnone,
        Option.none_or] at hp
      obtain ⟨hlen, huser⟩ := h p hp
      exact ⟨hlen, hstays.trans huser⟩
    · rw [show lastPosition (((tunnel env).body i (c.locals i)).sent input c.state) = some q from hq,
        Option.some_or] at hp
      obtain rfl := Option.some.inj hp
      exact ⟨hlen, hmoved⟩

/-- **The tunnel knows where the server thinks the user is.** In every state of a run in which nobody walks, the
    last position that was sent to the server is the one in `user`. -/
theorem position_known (env : Env) (t : Tunnel) (sched : List (ThreadId × Bytes))
    (h : (tunnel env).Always (fun c i input => ¬ Walks env c.state input (c.locals i)) (beginning t) sched) (k : Nat)
    (p : Bytes) (hp : lastPosition ((tunnel env).turns (beginning t) (sched.take k)).sent = some p) :
    KnownAs ((tunnel env).turns (beginning t) (sched.take k)).state p := by
  have hstart : PositionKnown (beginning t) := fun p hp => absurd hp (by simp [beginning, lastPosition, sentTo])
  exact PositionKnown.knownAs (turns_invariant positionKnown_turn hstart (Always.take h k)) hp

/-- The client at (3, 2, 1), looking at (4, 5). -/
def hereIAm : Bytes := [0x08, 255, 0, 96, 0, 64, 0, 32, 4, 5]

/-- A position, and nothing else. -/
theorem position_known_once :
    KnownAs ((tunnel {}).turns (beginning {}) ([(.tunnelServer, hereIAm)].take 1)).state hereIAm :=
  position_known {} {} [(.tunnelServer, hereIAm)] ⟨fun h => absurd h.1 (by decide), trivial⟩ 1 hereIAm
    (by decide +kernel)

/-- The client logs in, says where it is, and walks by 'ptp'. -/
def walkAway : List (ThreadId × Bytes) :=
  [(.tunnelServer, 0x00 :: List.replicate 130 0), (.tunnelServer, hereIAm),
    (.tunnelServer, 0x0d :: 0 :: padded (ascii "'ptp"))]

/-- The server has the client at the last block of the row, the tunnel where it was before. -/
theorem ptp_walks_away :
    lastPosition ((tunnel {}).turns (beginning {}) walkAway).sent = some [0x08, 255, 1, 128, 250, 0, 0, 32, 0, 0] ∧
      ¬ KnownAs ((tunnel {}).turns (beginning {}) walkAway).state [0x08, 255, 1, 128, 250, 0, 0, 32, 0, 0] := by
  have hlast : lastPosition ((tunnel {}).turns (beginning {}) walkAway).sent =
      some [0x08, 255, 1, 128, 250, 0, 0, 32, 0, 0] := by
    decide +kernel
  have huser : ((tunnel {}).turns (beginning {}) walkAway).state.user.position = positionIn hereIAm := by
    decide +kernel
  refine ⟨hlast, fun hknown => ?_⟩
  have hsame := huser.symm.trans hknown.user
  exact absurd hsame (by decide)

end LavaTunnel
