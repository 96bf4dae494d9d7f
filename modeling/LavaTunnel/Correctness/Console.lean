import LavaTunnel.Correctness.Activity
import LavaTunnel.Correctness.Leftovers

/-!
# `LavaTunnel.Correctness.Console` — the console and the chat

A command comes in on the console, or in a chat message. The console line is cut at the apostrophe by `main`, the chat
message is cleaned and cut by `tunnelServer`, and an unknown command is answered on the one side and printed on the
other. Otherwise there is one `commandFunc`: a run does not depend on which way its commands come in, as far as the
shared state, the four threads and the server are concerned, and as long as the commands do not look for a player. The
search compares with what the calls before it have left on the stack of its thread.
-/

namespace LavaTunnel

open Wire Wire.Prog

/-- The server sees it. -/
def toServer (e : Socket × Bytes) : Bool := decide (e.1 = tunnelSock)

/-- Two moments that only the client can tell apart. -/
structure ServerAlike (c c' : Turns ThreadId Tunnel Socket Locals) : Prop where
  state : c.state = c'.state
  locals : c.locals = c'.locals
  ended : c.ended = c'.ended
  sent : c.sent.filter toServer = c'.sent.filter toServer

/-- Two turns that are the same but for the way a command comes in, where it makes no difference over which memory. -/
def SameCommand (c : Turns ThreadId Tunnel Socket Locals) (e e' : ThreadId × Env × Bytes) : Prop :=
  (e.1 = e'.1 ∧ e.2.2 = e'.2.2 ∧ NoDifference c.state e.1 (c.locals e.1) e.2.2 e.2.1 e'.2.1) ∨
    ∃ text, commandIn e.2.1 e.1 e.2.2 = some text ∧ commandIn e'.2.1 e'.1 e'.2.2 = some text ∧
      Indifferent c.state 0 (commandFunc e.2.1 text) (commandFunc e'.2.1 text)

/-- The commands that look for a player. -/
def searchNames : List Bytes :=
  [ascii "plotmotion", ascii "find", ascii "ignore", ascii "follow", ascii "spectate"]

/-- **Every other command** does the same over any memory. -/
theorem indifferent_commandFunc {env env' : Env} (hrand : env.rand = env'.rand) {text : Bytes}
    (h : ∀ name ∈ searchNames, arg0 text ≠ some name) (t : Tunnel) :
    Indifferent t 0 (commandFunc env text) (commandFunc env' text) := by
  have hroll : cmdRoll env = cmdRoll env' := by
    unfold cmdRoll rand
    rw [hrand]
  have hsame : commandFunc env text = commandFunc env' text := by
    unfold commandFunc
    rw [hroll]
    simp only [if_neg (h (ascii "plotmotion") (by simp [searchNames])),
      if_neg (h (ascii "find") (by simp [searchNames])), if_neg (h (ascii "ignore") (by simp [searchNames])),
      if_neg (h (ascii "follow") (by simp [searchNames])), if_neg (h (ascii "spectate") (by simp [searchNames]))]
  rw [hsame]
  exact Indifferent.refl _

section Turn

variable {env env' : Env} {c c' : Turns ThreadId Tunnel Socket Locals}

/-- The same turn. -/
theorem ServerAlike.turn (h : ServerAlike c c') {i : ThreadId} {input : Bytes}
    (hsame : NoDifference c.state i (c.locals i) input env env') :
    ServerAlike ((tunnel env).turn c i input) ((tunnel env').turn c' i input) := by
  have hgo : (c.ended = false ∧ (tunnel env).started i c.state = true) ↔
      (c'.ended = false ∧ (tunnel env').started i c'.state = true) := by
    rw [← h.ended, ← h.state]
    exact Iff.rfl
  by_cases hturn : c.ended = false ∧ (tunnel env).started i c.state = true
  · obtain ⟨hrun, hsent⟩ : ((tunnel env).body i (c.locals i)).run input c.state =
        ((tunnel env').body i (c.locals i)).run input c.state ∧
          ((tunnel env).body i (c.locals i)).sent input c.state =
            ((tunnel env').body i (c.locals i)).sent input c.state := hsame
    unfold System.turn
    rw [if_pos hturn, if_pos (hgo.mp hturn), ← h.state, ← h.locals]
    dsimp only
    rw [hrun, hsent]
    refine ⟨rfl, rfl, rfl, ?_⟩
    show (c.sent ++ _).filter toServer = (c'.sent ++ _).filter toServer
    rw [List.filter_append, List.filter_append, h.sent]
  · rw [turn_of_not hturn, turn_of_not (fun hturn' => hturn (hgo.mpr hturn'))]
    exact h

/-- What a round makes of a command, on either way: the result, the state, and what the server sees. -/
def Commands (env : Env) (text : Bytes) (t : Tunnel) (c : Code Locals) (input : Bytes) (l : Locals) : Prop :=
  (c.run input t).result = some l ∧ (c.run input t).state = commanded env text t ∧
    (c.sent input t).filter toServer = ((commandFunc env text).sent ([] : Bytes) t).filter toServer

theorem commands_console {input text : Bytes} (h : commandIn env .main input = some text) (t : Tunnel) :
    Commands env text t (round env .main .main) input .main := by
  obtain ⟨hcommand, rfl⟩ : byte (input.take 64) = 39 ∧ cstr ((input.take 64).drop 1) = text := by
    unfold commandIn at h
    dsimp only at h
    split_ifs at h with hcommand
    · exact ⟨hcommand, Option.some.inj h⟩
  obtain ⟨known, out, hrun⟩ := run_commandFunc env (cstr ((input.take 64).drop 1)) (input.drop 64) t
  have hsent := Local.sent_any (isCommand_commandFunc env (cstr ((input.take 64).drop 1))) (input.drop 64) [] t
  have hround : round env .main .main = (do console env; pure .main) := rfl
  rw [hround]
  unfold Commands
  rw [run_bind_pure, sent_bind_pure]
  show ((consoleLine env (input.take 64)).run (input.drop 64) t).result.map _ = _ ∧
    ((consoleLine env (input.take 64)).run (input.drop 64) t).state = _ ∧
      ((consoleLine env (input.take 64)).sent (input.drop 64) t).filter toServer = _
  unfold consoleLine
  rw [onlyIf_pos hcommand, run_bind_pure, sent_bind_pure, hrun, hsent]
  exact ⟨rfl, rfl, rfl⟩

/-- A command from the chat: an answer to an unknown one is for the client. -/
theorem run_chatCommand (env : Env) (text i : Bytes) (t : Tunnel) :
    ((Server.chatCommand env text).run i t).result = some () ∧
      ((Server.chatCommand env text).run i t).state = commanded env text t ∧
        ((Server.chatCommand env text).sent i t).filter toServer =
          ((commandFunc env text).sent ([] : Bytes) t).filter toServer := by
  obtain ⟨known, out, hrun⟩ := run_commandFunc env text i t
  unfold Server.chatCommand
  rw [run_bind, sent_bind, hrun, Local.sent_any (isCommand_commandFunc env text) i [] t, List.filter_append]
  cases known with
  | false => exact ⟨rfl, rfl, List.append_nil _⟩
  | true => exact ⟨rfl, rfl, List.append_nil _⟩

theorem commands_chat {input text : Bytes} (h : commandIn env .tunnelServer input = some text) (l : ServerLocals)
    (t : Tunnel) : Commands env text t (round env .tunnelServer (.tunnelServer l)) input (.tunnelServer l) := by
  obtain ⟨⟨hbyte, hcommand⟩, rfl⟩ : (byte input = 0x0d ∧ Server.isCommand env (arrivingText env input) = true) ∧
      (Server.cleanMessage env (arrivingText env input)).drop 1 = text := by
    unfold commandIn at h
    dsimp only at h
    split_ifs at h with hcommand
    · exact ⟨hcommand, Option.some.inj h⟩
  obtain ⟨i, rfl⟩ : ∃ i, input = 0x0d :: i := by
    cases input with
    | nil => exact absurd hbyte (by decide)
    | cons id i => exact ⟨i, congrArg (· :: i) hbyte⟩
  have hround : round env .tunnelServer (.tunnelServer l) = (do let l' ← tunnelServer env l; pure (.tunnelServer l')) :=
    rfl
  rw [hround]
  unfold Commands
  rw [run_bind_pure, sent_bind_pure, tunnelServer, run_recv_id env Prog.exit (fun id => Server.dispatch env id l),
    sent_recv_id env Prog.exit (fun id => Server.dispatch env id l),
    Server.dispatch_of_mem (Server.own_mem (e := (0x0d, Server.chatMessage env)) (by repeat constructor)),
    run_bind_pure, sent_bind_pure, Server.chatMessage_eq]
  simp only [run_recvVarW_bind, sent_recvVarW_bind]
  unfold Server.said
  rw [if_pos (show Server.isCommand env ((env.var 2).fill 64 ((i.drop 1).take 64)) = true from hcommand)]
  obtain ⟨hresult, hstate, hsent⟩ := run_chatCommand env
    ((Server.cleanMessage env (arrivingText env (0x0d :: i))).drop 1) ((i.drop 1).drop 64) t
  exact ⟨congrArg (fun r => (r.map fun _ => l).map Locals.tunnelServer) hresult, hstate, hsent⟩

/-- **A command comes in**, on either way. -/
theorem turn_command (hgoes : c.ended = false) (howned : Owned c) {e : ThreadId × Bytes} {text : Bytes}
    (h : commandIn env e.1 e.2 = some text) :
    ((tunnel env).turn c e.1 e.2).state = commanded env text c.state ∧
      ((tunnel env).turn c e.1 e.2).locals = c.locals ∧ ((tunnel env).turn c e.1 e.2).ended = false ∧
        ((tunnel env).turn c e.1 e.2).sent.filter toServer = c.sent.filter toServer ++
          ((commandFunc env text).sent ([] : Bytes) c.state).filter toServer := by
  obtain ⟨i, input⟩ := e
  obtain ⟨hstarted, hcommands⟩ : (tunnel env).started i c.state = true ∧
      Commands env text c.state (round env i (c.locals i)) input (c.locals i) := by
    cases i with
    | main =>
        have hl : c.locals .main = .main := howned.main
        rw [hl]
        exact ⟨rfl, commands_console h c.state⟩
    | tunnelServer =>
        obtain ⟨l, hl⟩ := howned.tunnelServer
        rw [hl]
        exact ⟨rfl, commands_chat h l c.state⟩
    | mcConnect => exact absurd h (by simp [commandIn])
    | builder => exact absurd h (by simp [commandIn])
  obtain ⟨hresult, hstate, hsent⟩ := hcommands
  obtain ⟨hdoes, hadds⟩ : ((tunnel env).turn c i input).state = _ ∧ _ := turn_does input ⟨hgoes, hstarted⟩
  refine ⟨hdoes.trans hstate, ?_, ?_, ?_⟩
  · funext j
    by_cases hj : j = i
    · subst hj
      have hself : ((tunnel env).turn c j input).locals j = ((round env j (c.locals j)).run input c.state).result.getD
          (c.locals j) := turn_locals_self input ⟨hgoes, hstarted⟩
      rw [hself, hresult]
      rfl
    · exact turn_locals_ne hj input
  · have hends : ((tunnel env).turn c i input).ended =
        ((round env i (c.locals i)).run input c.state).result.isNone := turn_ended input ⟨hgoes, hstarted⟩
    rw [hends, hresult]
    rfl
  · rw [hadds, List.filter_append]
    exact congrArg (c.sent.filter toServer ++ ·) hsent

/-- **One turn.** -/
theorem ServerAlike.pair (h : ServerAlike c c') (howned : Owned c) {e e' : ThreadId × Env × Bytes}
    (hpair : SameCommand c e e') :
    ServerAlike ((tunnel e.2.1).turn c e.1 e.2.2) ((tunnel e'.2.1).turn c' e'.1 e'.2.2) := by
  obtain ⟨i, env, input⟩ := e
  obtain ⟨i', env', input'⟩ := e'
  rcases hpair with ⟨hi, hinput, hsame⟩ | ⟨text, hcommand, hcommand', hsame⟩
  · obtain rfl : i = i' := hi
    obtain rfl : input = input' := hinput
    exact h.turn hsame
  · have howned' : Owned c' := by
      unfold Owned
      rw [← h.locals]
      exact howned
    cases hended : c.ended with
    | true =>
        rw [turn_of_not (fun hturn => absurd (hended.symm.trans hturn.1) (by decide)),
          turn_of_not (fun hturn => absurd ((hended.symm.trans h.ended).trans hturn.1) (by decide))]
        exact h
    | false =>
        obtain ⟨hstate, hlocals, hends, hsent⟩ := turn_command (e := (i, input)) hended howned hcommand
        obtain ⟨hstate', hlocals', hends', hsent'⟩ :=
          turn_command (e := (i', input')) (h.ended.symm.trans hended) howned' hcommand'
        obtain ⟨hrun, hadds⟩ := hsame [] (Nat.zero_le _)
        refine ⟨?_, ?_, ?_, ?_⟩
        · rw [hstate, hstate', ← h.state]
          exact congrArg Outcome.state hrun
        · rw [hlocals, hlocals', h.locals]
        · rw [hends, hends']
        · rw [hsent, hsent', h.sent, ← h.state, hadds]

end Turn

/-- **Which way a command comes in makes no difference to the server.** Two runs of the four threads from one start,
    whatever arrives, which are the same but for the way their commands come in, end in the same state, with the
    threads at the same places, and have sent the server the same packets. Each turn of either run finds a memory of
    its own, and what these hold makes no difference to the turn or the command. -/
theorem console_chat_runs (t : Tunnel) {sched sched' : List (ThreadId × Env × Bytes)}
    (h : InStep tunnel SameCommand (beginning t) sched sched') :
    ServerAlike (turnsWith tunnel (beginning t) sched) (turnsWith tunnel (beginning t) sched') := by
  have hstep : ∀ (c c' : Turns ThreadId Tunnel Socket Locals) e e', (Owned c ∧ ServerAlike c c') →
      SameCommand c e e' → Owned ((tunnel e.2.1).turn c e.1 e.2.2) ∧
        ServerAlike ((tunnel e.2.1).turn c e.1 e.2.2) ((tunnel e'.2.1).turn c' e'.1 e'.2.2) :=
    fun c c' e e' hc hpair => ⟨owned_turn e.1 e.2.2 hc.1, hc.2.pair hc.1 hpair⟩
  exact (turns_pairwise hstep ⟨owned_beginning t, rfl, rfl, rfl, rfl⟩ h).2

/-- A cuboid is asked for on the console, or in the chat. Then the client lets the user hold something, over what the
    message has left. -/
theorem console_chat_runs_z :
    ServerAlike (turnsWith tunnel (beginning {}) [(.main, {}, ascii "'z stone"), (.tunnelServer, {}, [0x14, 1, 0])])
      (turnsWith tunnel (beginning {})
        [(.tunnelServer, { junk := fun _ _ => 39 }, 0x0d :: 0xff :: (ascii "'z stone" ++ List.replicate 56 32)),
          (.tunnelServer, { junk := fun _ _ => 32 }, [0x14, 1, 0])]) := by
  refine console_chat_runs {} ⟨?_, ?_, trivial⟩
  · exact Or.inr ⟨ascii "z stone", by rfl, by decide, indifferent_commandFunc rfl (by decide) _⟩
  · exact Or.inl ⟨rfl, rfl, noDifference_client (n := 2) (by decide) (by decide) (by decide) _⟩

end LavaTunnel
