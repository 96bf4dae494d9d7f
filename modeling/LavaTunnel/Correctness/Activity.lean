import LavaTunnel.Correctness.Login
import LavaTunnel.Correctness.RoundFrames

/-!
# `LavaTunnel.Correctness.Activity` — what a turn does

A turn of a thread does one of seven things: `activity` says which, from the locals of the thread and from what
arrives. `Did` says what the state is afterwards and what has been sent, and `turn_did` is the one theorem about a
turn that the results on whole runs start from.
-/

namespace LavaTunnel

open Wire Wire.Prog

/-- What a thread does in its turn. -/
inductive Activity where
  | nothing
  | command (text : Bytes)
  | login
  | server
  | click
  | client
  | build
deriving DecidableEq

/-- What arrives decides between a command, a click and anything else. A thread with the locals of another one does
    nothing. -/
def activity (env : Env) (input : Bytes) : ThreadId → Locals → Activity
  | .main, .main =>
      if byte (input.take 64) = 39 then .command (cstr ((input.take 64).drop 1)) else .nothing
  | .tunnelServer, .tunnelServer _ =>
      if byte input = 0x0d ∧ Server.isCommand env (arrivingText env input) = true then
        .command ((Server.cleanMessage env (arrivingText env input)).drop 1)
      else if byte input = 0x05 then .click
      else .client
  | .mcConnect, .connecting => .login
  | .mcConnect, .mcConnect _ => .server
  | .builder, .builder _ => .build
  | _, _ => .nothing

theorem activity_main (env : Env) (input : Bytes) : activity env input .main .main =
    if byte (input.take 64) = 39 then .command (cstr ((input.take 64).drop 1)) else .nothing := rfl

theorem activity_tunnelServer (env : Env) (input : Bytes) (l : ServerLocals) :
    activity env input .tunnelServer (.tunnelServer l) =
      if byte input = 0x0d ∧ Server.isCommand env (arrivingText env input) = true then
        .command ((Server.cleanMessage env (arrivingText env input)).drop 1)
      else if byte input = 0x05 then .click
      else .client := rfl

/-- Who does it. -/
def Activity.By : Activity → ThreadId → Locals → Prop
  | .nothing, _, _ => True
  | .command _, i, _ => i = .main ∨ i = .tunnelServer
  | .login, i, l => i = .mcConnect ∧ l = .connecting
  | .server, i, _ => i = .mcConnect
  | .click, i, _ => i = .tunnelServer
  | .client, i, _ => i = .tunnelServer
  | .build, i, _ => i = .builder

theorem activity_by (env : Env) (input : Bytes) (i : ThreadId) (l : Locals) : (activity env input i l).By i l := by
  cases i with
  | main =>
      cases l with
      | main =>
          rw [activity_main]
          split_ifs
          · exact Or.inl rfl
          · trivial
      | _ => trivial
  | tunnelServer =>
      cases l with
      | tunnelServer l =>
          rw [activity_tunnelServer]
          split_ifs
          · exact Or.inr rfl
          · exact rfl
          · exact rfl
      | _ => trivial
  | mcConnect =>
      cases l with
      | connecting => exact ⟨rfl, rfl⟩
      | mcConnect l => exact rfl
      | _ => trivial
  | builder =>
      cases l with
      | builder pc => exact rfl
      | _ => trivial

section Who

variable {env : Env} {input : Bytes} {i : ThreadId} {l : Locals}

theorem activity_login (h : activity env input i l = .login) : i = .mcConnect ∧ l = .connecting := by
  have hby := activity_by env input i l
  rw [h] at hby
  exact hby

theorem activity_server (h : activity env input i l = .server) : i = .mcConnect := by
  have hby := activity_by env input i l
  rw [h] at hby
  exact hby

theorem activity_client (h : activity env input i l = .client) : i = .tunnelServer := by
  have hby := activity_by env input i l
  rw [h] at hby
  exact hby

theorem activity_build (h : activity env input i l = .build) : i = .builder := by
  have hby := activity_by env input i l
  rw [h] at hby
  exact hby

end Who

/-- The command in a turn, if there is one. -/
def commandIn (env : Env) (i : ThreadId) (input : Bytes) : Option Bytes :=
  match i with
  | .main => if byte (input.take 64) = 39 then some (cstr ((input.take 64).drop 1)) else none
  | .tunnelServer =>
      if byte input = 0x0d ∧ Server.isCommand env (arrivingText env input) = true then
        some ((Server.cleanMessage env (arrivingText env input)).drop 1)
      else none
  | _ => none

/-- An activity that is a command is the one in the turn. -/
theorem commandIn_of_activity {env : Env} {i : ThreadId} {l : Locals} {input text : Bytes}
    (h : activity env input i l = .command text) : commandIn env i input = some text := by
  cases i with
  | main =>
      cases l with
      | main =>
          rw [activity_main] at h
          by_cases hcommand : byte (input.take 64) = 39
          · rw [if_pos hcommand] at h
            exact (if_pos hcommand).trans (congrArg some (Activity.command.inj h))
          · rw [if_neg hcommand] at h
            exact absurd h (by simp)
      | _ => exact absurd h (by simp [activity])
  | tunnelServer =>
      cases l with
      | tunnelServer l =>
          rw [activity_tunnelServer] at h
          by_cases hcommand : byte input = 0x0d ∧ Server.isCommand env (arrivingText env input) = true
          · rw [if_pos hcommand] at h
            exact (if_pos hcommand).trans (congrArg some (Activity.command.inj h))
          · rw [if_neg hcommand] at h
            split_ifs at h
      | _ => exact absurd h (by simp [activity])
  | mcConnect => cases l <;> exact absurd h (by simp [activity])
  | builder => cases l <;> exact absurd h (by simp [activity])

/-- The state afterwards, and what has been sent. -/
def Did (env : Env) (t t' : Tunnel) (sent : List (Socket × Bytes)) : Activity → Prop
  | .nothing => t' = t ∧ sent = []
  | .command text => t' = commanded env text t ∧ ∀ e ∈ sent, Made e.1 e.2
  | .login => (∃ unused, t' = { t with unused := unused }) ∧ sent = [(tunnelSock, loginPacket t.account)]
  | .server => ServerTurn t t' ∧ ∀ e ∈ sent, MadeBut serverSock e.1 e.2
  | .click => (∃ p blocktype, t' = if t.zPlace then pointed p blocktype t else t) ∧ ∀ e ∈ sent, Made e.1 e.2
  | .client => ClientTurn t t' ∧ ∀ e ∈ sent, Passes e.1 e.2
  | .build => Builds t t' ∧ ∀ e ∈ sent, Made e.1 e.2

/-! ## What the user changes -/

/-- The state without what commands and clicks change. -/
def Tunnel.besidesUser (t : Tunnel) : Tunnel :=
  { t.besidesToggles with cuboid := {}, copy := {}, paste := {}, points := 0, zPlace := false }

/-- A click sets points, and starts what waits for them. -/
theorem besidesUser_pointed (p : Point) (blocktype : UInt8) (t : Tunnel) :
    (pointed p blocktype t).besidesUser = t.besidesUser := by
  have hcuboid : (cuboidPointed p blocktype t).besidesUser = t.besidesUser := by
    unfold cuboidPointed
    split_ifs <;> rfl
  have hpaste : ∀ t, (pastePointed p t).besidesUser = t.besidesUser := by
    intro t
    unfold pastePointed
    split_ifs <;> rfl
  have hcopy : ∀ t, (copyPointed p t).besidesUser = t.besidesUser := by
    intro t
    unfold copyPointed
    split_ifs <;> rfl
  unfold pointed
  rw [hcopy, hpaste, hcuboid]

/-- `cancel` takes modes from the players. -/
theorem besidesUser_cancelled (t : Tunnel) : (cancelled t).besidesUser = t.besidesUser := by
  have hplayer : ∀ i, { (cancelled t).player i with mode := 0, ignore := false } =
      { t.player i with mode := 0, ignore := false } := by
    intro i
    unfold cancelled
    by_cases hi : 0 ≤ i ∧ i < 256
    · simp only [if_pos hi]
    · simp only [if_neg hi]
  show { t.besidesUser with player := fun i => { (cancelled t).player i with mode := 0, ignore := false } } = _
  rw [funext hplayer]
  rfl

/-- **A command**, of any kind. -/
theorem besidesUser_commanded (env : Env) (text : Bytes) (t : Tunnel) :
    (commanded env text t).besidesUser = t.besidesUser := by
  by_cases hplaces : Places text
  · rcases hplaces with rfl | hpaste | hcopy | hz
    · rw [commanded_cancel, besidesUser_cancelled]
      split_ifs <;> rfl
    · rw [commanded_paste env t hpaste]
      cases arg1 text with
      | none => rfl
      | some name => rfl
    · rw [commanded_copy env t hcopy]
      cases arg1 text with
      | none => rfl
      | some name => rfl
    · rw [commanded_z env t hz]
      rfl
  · have htoggles : Toggling (fun _ => True) t (commanded env text t) :=
      (toggling_commandFunc env (M := fun _ => True) trivial (fun _ => trivial) hplaces).run toggling_refl
        Toggling.trans [] t
    have hsame : ∀ t : Tunnel, t.besidesUser =
        { t.besidesToggles with cuboid := {}, copy := {}, paste := {}, points := 0, zPlace := false } := fun _ => rfl
    rw [hsame, hsame, htoggles.1]

section Rounds

variable {env : Env} {t : Tunnel} {input : Bytes}

/-- A frame is what is said of the run. -/
theorem did_of_framed {R : Tunnel → Tunnel → Prop} {blur : Tunnel → Tunnel} {P : Socket → Bytes → Prop} {α : Type}
    {c : Code α} (hrefl : ∀ t, R t t) (htrans : ∀ {a b c}, R a b → R b c → R a c) (h : c.Framed R blur P)
    (i : Bytes) (t : Tunnel) : R t (c.run i t).state ∧ ∀ e ∈ c.sent i t, P e.1 e.2 :=
  ⟨h.run hrefl htrans i t, h.sent i t⟩

/-- A result makes no difference. -/
theorem did_bind_pure {α β : Type} {c : Code α} {i : Bytes} {g : α → β} {a : Activity}
    (h : Did env t (c.run i t).state (c.sent i t) a) :
    Did env t ((do let a ← c; pure (g a) : Code β).run i t).state ((do let a ← c; pure (g a) : Code β).sent i t) a := by
  rw [sent_bind_pure, run_bind_pure]
  exact h

/-- A command receives nothing, and goes on. -/
theorem run_commandFunc (env : Env) (text i : Bytes) (t : Tunnel) : ∃ known out,
    (commandFunc env text).run i t = ⟨some known, i, commanded env text t, out⟩ := by
  obtain ⟨known, t', out, htakes, -⟩ := (isCommand_commandFunc env text).takes t
  have hrun : ∀ j, (commandFunc env text).run j t = ⟨some known, j, t', out⟩ := htakes
  refine ⟨known, out, ?_⟩
  unfold commanded
  rw [hrun i, hrun []]

theorem did_console : Did env t ((console env).run input t).state ((console env).sent input t)
    (activity env input .main .main) := by
  show Did env t ((consoleLine env (input.take 64)).run (input.drop 64) t).state
    ((consoleLine env (input.take 64)).sent (input.drop 64) t) _
  rw [activity_main]
  unfold consoleLine
  by_cases h : byte (input.take 64) = 39
  · rw [if_pos h, onlyIf_pos h]
    obtain ⟨known, out, hrun⟩ := run_commandFunc env (cstr ((input.take 64).drop 1)) (input.drop 64) t
    refine did_bind_pure ⟨?_, (made_commandFunc env _).sent _ t⟩
    rw [hrun]
  · rw [if_neg h, onlyIf_neg h]
    exact ⟨rfl, rfl⟩

/-- A command from the chat is answered if it is unknown. -/
theorem did_chatCommand (text i : Bytes) : Did env t ((Server.chatCommand env text).run i t).state
    ((Server.chatCommand env text).sent i t) (.command text) := by
  have hmade : (Server.chatCommand env text).Framed (fun _ _ => True) id Made :=
    Framed.bind (made_commandFunc env text) fun _ => Framed.onlyIf (made_tunnelMsg _)
  refine ⟨?_, hmade.sent i t⟩
  obtain ⟨known, out, hrun⟩ := run_commandFunc env text i t
  unfold Server.chatCommand
  rw [run_bind, hrun]
  cases known with
  | false => rfl
  | true => rfl

/-- What does not receive the chat, nor a click. -/
theorem did_listens {α : Type} {c : Code α} (h : Server.Listens Passes c) (i : Bytes) :
    Did env t (c.run i t).state (c.sent i t) .client :=
  did_of_framed clientTurn_refl ClientTurn.trans (h.mono (fun _ _ hvoiced => hvoiced.side.1) (fun _ _ => id)) i t

theorem did_tunnelServer (l : ServerLocals) : Did env t ((tunnelServer env l).run input t).state
    ((tunnelServer env l).sent input t) (activity env input .tunnelServer (.tunnelServer l)) := by
  cases input with
  | nil =>
      -- the client has gone
      rw [tunnelServer, run_recvW_bind, sent_recvW_bind]
      exact did_listens (Framed.exit : Server.Listens Passes (Prog.exit : Code ServerLocals)) _
  | cons id i =>
      rw [tunnelServer, run_recv_id env Prog.exit (fun id => Server.dispatch env id l),
        sent_recv_id env Prog.exit (fun id => Server.dispatch env id l)]
      by_cases hd : id = 0x0d
      · subst hd
        rw [Server.dispatch_of_mem (Server.own_mem (e := (0x0d, Server.chatMessage env)) (by repeat constructor))]
        refine did_bind_pure ?_
        rw [Server.chatMessage_eq]
        simp only [run_recvVarW_bind, sent_recvVarW_bind]
        rw [activity_tunnelServer]
        cases hc : Server.isCommand env (arrivingText env (0x0d :: i)) with
        | false =>
            rw [if_neg (fun h => absurd h.2 Bool.false_ne_true), if_neg (show byte (0x0d :: i) ≠ 0x05 by simp [byte])]
            exact did_listens (Server.listens_said env (passes_cons _ (by decide)) hc) _
        | true =>
            rw [if_pos ⟨rfl, rfl⟩]
            unfold Server.said
            rw [if_pos (show Server.isCommand env ((env.var 2).fill 64 ((i.drop 1).take 64)) = true from hc)]
            exact did_chatCommand _ _
      · rw [activity_tunnelServer, if_neg (fun h => hd h.1)]
        by_cases h5 : id = 0x05
        · subst h5
          rw [Server.dispatch_of_mem (Server.own_mem (e := (0x05, Server.setBlockClick env)) (by repeat constructor)),
            if_pos (show byte (0x05 :: i) = 0x05 from rfl)]
          exact did_bind_pure ⟨Server.clicked_eq env i t, (Server.heeds_setBlockClick env).sent i t⟩
        · rw [if_neg (show byte (id :: i) ≠ 0x05 from h5)]
          exact did_of_framed clientTurn_refl ClientTurn.trans (Server.turns_dispatch env passes_cons ⟨h5, hd⟩ l) i t

/-- **One turn.** -/
theorem did_round (i : ThreadId) (l : Locals) : Did env t ((round env i l).run input t).state
    ((round env i l).sent input t) (activity env input i l) := by
  have hnothing : Did env t ((pure l : Code Locals).run input t).state ((pure l : Code Locals).sent input t)
      .nothing := ⟨rfl, rfl⟩
  -- a thread on another thread's code does nothing
  cases i with
  | main =>
      cases l with
      | main => exact did_bind_pure did_console
      | _ => exact hnothing
  | tunnelServer =>
      cases l with
      | tunnelServer l => exact did_bind_pure (did_tunnelServer l)
      | _ => exact hnothing
  | mcConnect =>
      cases l with
      | connecting =>
          refine did_bind_pure (a := .login) ⟨⟨_, rfl⟩, ?_⟩
          show [(tunnelSock, _)] = _
          simp [loginPacket, Tunnel.account]
      | mcConnect l =>
          exact did_bind_pure (did_of_framed serverTurn_refl ServerTurn.trans (turns_mcConnect env l) input t)
      | _ => exact hnothing
  | builder =>
      cases l with
      | builder pc => exact did_bind_pure (did_of_framed builds_refl Builds.trans (builds_builder env pc) input t)
      | _ => exact hnothing

end Rounds

/-! ## The threads keep to their code -/

/-- Whose locals they are. -/
def Locals.owner : Locals → ThreadId
  | .main => .main
  | .tunnelServer _ => .tunnelServer
  | .connecting => .mcConnect
  | .mcConnect _ => .mcConnect
  | .builder _ => .builder

/-- Every thread has its own locals. -/
def Owned (c : Turns ThreadId Tunnel Socket Locals) : Prop := ∀ i, (c.locals i).owner = i

theorem owned_beginning (t : Tunnel) : Owned (beginning t) := by
  intro i
  cases i with
  | _ => rfl

/-- A round leaves a thread in its own code. -/
theorem owner_round {env : Env} {i : ThreadId} {l l' : Locals} {input : Bytes} {t : Tunnel} (h : l.owner = i)
    (hresult : ((round env i l).run input t).result = some l') : l'.owner = i := by
  have howns : ∀ {α : Type} {c : Code α} {g : α → Locals}, (∀ a, (g a).owner = i) →
      ((do let a ← c; pure (g a) : Code Locals).run input t).result = some l' → l'.owner = i := by
    intro α c g hg hrun
    rw [run_bind_pure] at hrun
    obtain ⟨a, -, rfl⟩ := Option.map_eq_some_iff.mp hrun
    exact hg a
  subst h
  cases l with
  | main => exact howns (g := fun _ => .main) (fun _ => rfl) hresult
  | tunnelServer l => exact howns (g := .tunnelServer) (fun _ => rfl) hresult
  | connecting => exact howns (g := fun _ => .mcConnect {}) (fun _ => rfl) hresult
  | mcConnect l => exact howns (g := .mcConnect) (fun _ => rfl) hresult
  | builder pc => exact howns (g := .builder) (fun _ => rfl) hresult

theorem owned_turn {env : Env} {c : Turns ThreadId Tunnel Socket Locals} (i : ThreadId) (input : Bytes)
    (h : Owned c) : Owned ((tunnel env).turn c i input) := by
  by_cases hturn : c.ended = false ∧ (tunnel env).started i c.state = true
  · intro j
    unfold System.turn
    rw [if_pos hturn]
    show (Function.update c.locals i _ j).owner = j
    by_cases hj : j = i
    · subst hj
      rw [Function.update_self]
      show (((round env j (c.locals j)).run input c.state).result.getD (c.locals j)).owner = j
      cases hresult : ((round env j (c.locals j)).run input c.state).result with
      | none => exact h j
      | some l' => exact owner_round (h j) hresult
    · rw [Function.update_of_ne hj]
      exact h j
  · rw [turn_of_not hturn]
    exact h

/-- The console has no locals. -/
theorem Owned.main {c : Turns ThreadId Tunnel Socket Locals} (h : Owned c) : c.locals .main = .main := by
  have howner := h .main
  cases hlocals : c.locals .main with
  | main => rfl
  | _ => exact absurd (hlocals ▸ howner) (by simp [Locals.owner])

/-- `tunnelServer` has locals of its own. -/
theorem Owned.tunnelServer {c : Turns ThreadId Tunnel Socket Locals} (h : Owned c) :
    ∃ l, c.locals .tunnelServer = .tunnelServer l := by
  have howner := h .tunnelServer
  cases hlocals : c.locals .tunnelServer with
  | tunnelServer l => exact ⟨l, rfl⟩
  | _ => exact absurd (hlocals ▸ howner) (by simp [Locals.owner])

/-- So has the builder. -/
theorem Owned.builder {c : Turns ThreadId Tunnel Socket Locals} (h : Owned c) :
    ∃ pc, c.locals .builder = .builder pc := by
  have howner := h .builder
  cases hlocals : c.locals .builder with
  | builder pc => exact ⟨pc, rfl⟩
  | _ => exact absurd (hlocals ▸ howner) (by simp [Locals.owner])

section Turn

variable {env : Env} {c : Turns ThreadId Tunnel Socket Locals}

/-- A turn of `tunnelServer`. -/
theorem turn_tunnelServer (hgoes : c.ended = false) {l : ServerLocals}
    (hl : c.locals .tunnelServer = .tunnelServer l) (input : Bytes) :
    ((tunnel env).turn c .tunnelServer input).state = ((tunnelServer env l).run input c.state).state ∧
      ((tunnel env).turn c .tunnelServer input).sent = c.sent ++ (tunnelServer env l).sent input c.state := by
  have hbody : (tunnel env).body .tunnelServer (c.locals .tunnelServer) =
      (do let l' ← tunnelServer env l; pure (.tunnelServer l')) := by rw [hl]; rfl
  have hdoes : ((tunnel env).turn c .tunnelServer input).state = _ ∧ _ := turn_does input ⟨hgoes, rfl⟩
  rw [hbody, run_bind_pure, sent_bind_pure] at hdoes
  exact hdoes

/-- A turn of `mcConnect` in its loop. -/
theorem turn_mcConnect (hgoes : c.ended = false) (hlogged : c.state.loggedIn = true) {l : McLocals}
    (hl : c.locals .mcConnect = .mcConnect l) (input : Bytes) :
    ((tunnel env).turn c .mcConnect input).state = ((mcConnect env l).run input c.state).state ∧
      ((tunnel env).turn c .mcConnect input).sent = c.sent ++ (mcConnect env l).sent input c.state := by
  have hbody : (tunnel env).body .mcConnect (c.locals .mcConnect) =
      (do let l' ← mcConnect env l; pure (.mcConnect l')) := by rw [hl]; rfl
  have hdoes : ((tunnel env).turn c .mcConnect input).state = _ ∧ _ := turn_does input ⟨hgoes, hlogged⟩
  rw [hbody, run_bind_pure, sent_bind_pure] at hdoes
  exact hdoes

end Turn

/-- **What a turn does.** It changes nothing, or it is an activity of the thread. -/
theorem turn_did (env : Env) (c : Turns ThreadId Tunnel Socket Locals) (i : ThreadId) (input : Bytes) :
    (tunnel env).turn c i input = c ∨ ∃ sent, ((tunnel env).turn c i input).sent = c.sent ++ sent ∧
      Did env c.state ((tunnel env).turn c i input).state sent (activity env input i (c.locals i)) := by
  have hturn : (tunnel env).turn c i input = c ∨ _ := turn_cases c i input
  rcases hturn with hsame | ⟨hstate, hsent⟩
  · exact Or.inl hsame
  · refine Or.inr ⟨_, hsent, ?_⟩
    rw [hstate]
    exact did_round i (c.locals i)

end LavaTunnel
