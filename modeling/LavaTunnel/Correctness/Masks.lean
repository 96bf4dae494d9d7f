import LavaTunnel.Correctness.Activity
import LavaTunnel.Correctness.Leftovers
import LavaTunnel.Correctness.Padding

/-!
# `LavaTunnel.Correctness.Masks` — what nobody gets to see

Two results about two runs of the four threads.

* What the tunnel keeps for nobody: the ignore list and the ignore flags, the ids of the players, the texts of the
  login. Runs that differ only there, or in the account the client logs in with, look the same to the server, and to
  the client up to what 'ignore' answers. An ignored player is heard like any other.
* What the toggles cover up: the text of a gimped user, and the block a painting user holds. Runs that differ only
  there send the same packets.

What is kept for nobody or covered up stays in the memory, though, and a packet that is cut short takes from it what has
not arrived. So each turn of either run finds a memory of its own, and where the two differ it must make no difference
to the turn.
-/

namespace LavaTunnel

open Wire Wire.Prog

/-! ## 'ignore' -/

/-- Everything but the messages to the client. -/
def besidesMessages (e : Socket × Bytes) : Bool := e.1 = tunnelSock || e.2.head? ≠ some 0x0d

/-- Only what nobody heeds is changed. -/
def Unheeded (t t' : Tunnel) : Prop := t'.heeded = t.heeded

theorem unheeded_refl (t : Tunnel) : Unheeded t t := rfl

theorem Unheeded.trans {a b c : Tunnel} (hab : Unheeded a b) (hbc : Unheeded b c) : Unheeded a c :=
  Eq.trans hbc hab

/-- 'ignore' sets a flag that nobody heeds, and answers. -/
theorem unheeded_cmdIgnore (env : Env) (arg1 : Option Bytes) :
    (cmdIgnore env arg1).Framed Unheeded id (fun s bs => besidesMessages (s, bs) = false) := by
  have hmsg : ∀ msg, (tunnelMsg msg).Framed Unheeded id (fun s bs => besidesMessages (s, bs) = false) :=
    fun _ => Framed.packet rfl
  have hset : ∀ (i : Int) (b : Bool), (update (fun t => t.setPlayer i (fun p => { p with ignore := b })) :
      Code Unit).Framed Unheeded id (fun s bs => besidesMessages (s, bs) = false) := by
    intro i b
    refine Framed.update (fun t => ?_) (fun _ => rfl)
    have hplayer := Client.kept_setPlayer Player.heeded (f := fun p => { p with ignore := b }) (fun _ => rfl) t i
    show { t.heeded with player := fun j => ((t.setPlayer i (fun p => { p with ignore := b })).player j).heeded } = _
    rw [funext hplayer]
    rfl
  cases arg1 with
  | none => exact hmsg _
  | some name =>
      refine Framed.getState_bind (fun _ => rfl) fun t => framed_found (fun i => Framed.ite ?_ ?_) (hmsg _)
      · exact Framed.bind (hmsg _) fun _ => hset i false
      · exact Framed.bind (hmsg _) fun _ => hset i true

/-- A round does what follows the id. -/
theorem alike_of_dispatch {env env' : Env} {blur : Tunnel → Tunnel} {seen : Socket × Bytes → Bool} {t t' : Tunnel}
    {l : ServerLocals} {id : UInt8} {i i' : Bytes}
    (h : (Server.dispatch env id l).Alike blur seen i t (Server.dispatch env' id l) i' t') :
    (tunnelServer env l).Alike blur seen (id :: i) t (tunnelServer env' l) (id :: i') t' := by
  have hrun : ∀ (env : Env) (j : Bytes) s, (tunnelServer env l).run (id :: j) s = (Server.dispatch env id l).run j s :=
    fun env => run_recv_id env Prog.exit (fun id => Server.dispatch env id l) id
  have hsent : ∀ (env : Env) (j : Bytes) s,
      (tunnelServer env l).sent (id :: j) s = (Server.dispatch env id l).sent j s :=
    fun env => sent_recv_id env Prog.exit (fun id => Server.dispatch env id l) id
  constructor
  · rw [hrun, hrun]
    exact h.result
  · rw [hrun, hrun]
    exact h.state
  · rw [hsent, hsent]
    exact h.sent

/-- Where 'ignore' is run, its answer is not looked at. -/
def Overlooks (seen : Socket × Bytes → Bool) (text : Bytes) : Prop :=
  arg0 text = some (ascii "ignore") → seen = besidesMessages

section Alike

variable {env : Env} {t t' : Tunnel} (ht : t.heeded = t'.heeded) {seen : Socket × Bytes → Bool}
include ht

/-- Code that does not depend on what nobody heeds. -/
theorem alike_framed {R : Tunnel → Tunnel → Prop} {P : Socket → Bytes → Prop} {α : Type} {c : Code α}
    (h : c.Framed R Tunnel.heeded P) (i : Bytes) : c.Alike Tunnel.heeded seen i t c i t' :=
  h.tame.alike seen i ht

/-- **Every command.** -/
theorem alike_commandFunc {text : Bytes} (hseen : Overlooks seen text) (i : Bytes) :
    (commandFunc env text).Alike Tunnel.heeded seen i t (commandFunc env text) i t' := by
  by_cases hignore : arg0 text = some (ascii "ignore")
  · rw [commandFunc_of_mem (c := cmdIgnore env (arg1 text)) (by simp [argCommands]) hignore, hseen hignore]
    have hframed := unheeded_cmdIgnore env (arg1 text)
    have hstate : ∀ s, Unheeded s ((cmdIgnore env (arg1 text)).run i s).state :=
      hframed.run unheeded_refl Unheeded.trans i
    have hsent : ∀ s, ((cmdIgnore env (arg1 text)).sent i s).filter besidesMessages = [] := by
      intro s
      rw [List.filter_eq_nil_iff]
      intro e he
      rw [hframed.sent i s e he]
      exact Bool.false_ne_true
    have hresult : ∀ s, ((cmdIgnore env (arg1 text)).run i s).result = some () := by
      intro s
      have hlocal : IsCommand (cmdIgnore env (arg1 text)) :=
        Spoken.isCommand (heard_cmdIgnore env _).spoken (fun _ _ => And.left)
      obtain ⟨a, s', out, htakes, -⟩ := hlocal.takes s
      rw [show (cmdIgnore env (arg1 text)).run i s = _ from htakes i]
    refine Alike.map ⟨?_, ?_, ?_⟩ (fun _ => true)
    · rw [hresult, hresult]
    · exact Eq.trans (hstate t) (Eq.trans ht (Eq.symm (hstate t')))
    · rw [hsent, hsent]
  · exact alike_framed ht (heeds_commandFunc env hignore) i

/-- A line of the console. -/
theorem alike_console {input : Bytes} (hseen : ∀ text, activity env input .main .main = .command text →
    Overlooks seen text) : (console env).Alike Tunnel.heeded seen input t (console env) input t' := by
  have hline : (consoleLine env (input.take 64)).Alike Tunnel.heeded seen (input.drop 64) t
      (consoleLine env (input.take 64)) (input.drop 64) t' := by
    unfold consoleLine
    by_cases h : byte (input.take 64) = 39
    · rw [onlyIf_pos h]
      exact (alike_commandFunc ht (hseen _ (if_pos h)) _).map (fun _ => ())
    · rw [onlyIf_neg h]
      exact ⟨rfl, ht, rfl⟩
  exact ⟨hline.result, hline.state, hline.sent⟩

/-- A command from the chat. -/
theorem alike_chatCommand {text : Bytes} (hseen : Overlooks seen text) (i : Bytes) :
    (Server.chatCommand env text).Alike Tunnel.heeded seen i t (Server.chatCommand env text) i t' := by
  obtain ⟨known, out, hrun⟩ := run_commandFunc env text i t
  obtain ⟨known', out', hrun'⟩ := run_commandFunc env text i t'
  have hcommand : (commandFunc env text).Alike Tunnel.heeded seen i t (commandFunc env text) i t' :=
    alike_commandFunc ht hseen i
  have hknown : known = known' := by
    have hresult := hcommand.result
    rw [hrun, hrun'] at hresult
    exact Option.some.inj hresult
  subst hknown
  have hanswer : (onlyIf (known = false) (tunnelMsg (lava "Unknown command.")) : Code Unit).Framed
      (fun _ _ => True) Tunnel.heeded Made := Framed.onlyIf (made_tunnelMsg _)
  have hstate : (commanded env text t).heeded = (commanded env text t').heeded := by
    have hstate := hcommand.state
    rw [hrun, hrun'] at hstate
    exact hstate
  have hafter : (onlyIf (known = false) (tunnelMsg (lava "Unknown command.")) : Code Unit).Alike Tunnel.heeded seen i
      (commanded env text t) (onlyIf (known = false) (tunnelMsg (lava "Unknown command."))) i
      (commanded env text t') := alike_framed hstate hanswer i
  unfold Server.chatCommand
  constructor
  · rw [run_bind, run_bind, hrun, hrun']
    exact hafter.result
  · rw [run_bind, run_bind, hrun, hrun']
    exact hafter.state
  · rw [sent_bind_of hrun, sent_bind_of hrun', List.filter_append, List.filter_append, hcommand.sent, hafter.sent]

/-- What becomes of a message. -/
theorem alike_said {message : Bytes} (hseen : Server.isCommand env message = true →
    Overlooks seen ((Server.cleanMessage env message).drop 1)) (what i : Bytes) :
    (Server.said env what message).Alike Tunnel.heeded seen i t (Server.said env what message) i t' := by
  cases hc : Server.isCommand env message with
  | false => exact alike_framed ht (Server.listens_said env made_message hc) i
  | true =>
      unfold Server.said
      rw [if_pos hc]
      exact alike_chatCommand ht (hseen hc) i

/-- **A round of `tunnelServer`**, whatever arrives. -/
theorem alike_tunnelServer (l : ServerLocals) {input : Bytes}
    (hseen : ∀ text, activity env input .tunnelServer (.tunnelServer l) = .command text → Overlooks seen text) :
    (tunnelServer env l).Alike Tunnel.heeded seen input t (tunnelServer env l) input t' := by
  cases input with
  | nil =>
      -- the client has gone
      constructor
      · rw [tunnelServer, run_recvW_bind, run_recvW_bind]
        rfl
      · rw [tunnelServer, run_recvW_bind, run_recvW_bind]
        exact ht
      · rw [tunnelServer, sent_recvW_bind, sent_recvW_bind]
        rfl
  | cons id i =>
      apply alike_of_dispatch
      by_cases hd : id = 0x0d
      · subst hd
        have hmessage : Server.isCommand env ((env.var 2).fill 64 ((i.drop 1).take 64)) = true →
            Overlooks seen ((Server.cleanMessage env ((env.var 2).fill 64 ((i.drop 1).take 64))).drop 1) :=
          fun hc => hseen _ (if_pos ⟨rfl, hc⟩)
        have hsaid := alike_said ht hmessage ((env.var 1).fill 1 (i.take 1)) ((i.drop 1).drop 64)
        rw [Server.dispatch_of_mem (Server.own_mem (e := (0x0d, Server.chatMessage env)) (by repeat constructor))]
        refine Alike.map ?_ (fun _ => l)
        rw [Server.chatMessage_eq]
        constructor
        · simp only [run_recvVarW_bind]
          exact hsaid.result
        · simp only [run_recvVarW_bind]
          exact hsaid.state
        · simp only [sent_recvVarW_bind]
          exact hsaid.sent
      by_cases h5 : id = 0x05
      · subst h5
        rw [Server.dispatch_of_mem (Server.own_mem (e := (0x05, Server.setBlockClick env)) (by repeat constructor))]
        exact (alike_framed ht (Server.heeds_setBlockClick env) i).map (fun _ => l)
      · exact alike_framed ht (Server.turns_dispatch env passes_cons ⟨h5, hd⟩ l) i

/-- **A round of any thread.** -/
theorem alike_round (i : ThreadId) (l : Locals) {input : Bytes}
    (hseen : ∀ text, activity env input i l = .command text → Overlooks seen text) :
    (round env i l).Alike Tunnel.heeded seen input t (round env i l) input t' := by
  have hnothing : (pure l : Code Locals).Alike Tunnel.heeded seen input t (pure l) input t' := ⟨rfl, ht, rfl⟩
  cases i with
  | main =>
      cases l with
      | main => exact (alike_console ht hseen).map (fun _ => Locals.main)
      | _ => exact hnothing
  | tunnelServer =>
      cases l with
      | tunnelServer l => exact (alike_tunnelServer ht l hseen).map Locals.tunnelServer
      | _ => exact hnothing
  | mcConnect =>
      cases l with
      | connecting =>
          have hlogin : mcLogin.Framed (fun _ _ => True) Tunnel.heeded (fun _ _ => True) :=
            Framed.getState_bind (fun _ => rfl) fun _ =>
              Framed.bind (Framed.update (fun _ => trivial) (fun _ => rfl)) fun _ => Framed.packet trivial
          exact (alike_framed ht hlogin input).map (fun _ => Locals.mcConnect {})
      | mcConnect l => exact (alike_framed ht (turns_mcConnect env l) input).map Locals.mcConnect
      | _ => exact hnothing
  | builder =>
      cases l with
      | builder pc => exact (alike_framed ht (builds_builder env pc) input).map Locals.builder
      | _ => exact hnothing

end Alike

/-! ## The account of the client -/

/-- A login of the client: the version, name and key, and the last byte. -/
def loginOf (version : UInt8) (account : Bytes) (unused : UInt8) : Bytes :=
  0x00 :: version :: (account ++ [unused])

/-- Two turns, each with a memory and an input: the same input, where it makes no difference over which memory, or two
    logins of the client that differ in name and key. -/
def SameButAccount (c : Turns ThreadId Tunnel Socket Locals) (i : ThreadId) (x x' : Env × Bytes) : Prop :=
  x.2 = x'.2 ∧ NoDifference c.state i (c.locals i) x.2 x.1 x'.1 ∨
    i = .tunnelServer ∧ ∃ version account account' unused, account.length = 128 ∧ account'.length = 128 ∧
      x.2 = loginOf version account unused ∧ x'.2 = loginOf version account' unused

/-- The handler of the login sends nothing. -/
theorem sent_login (env : Env) (i : Bytes) (t : Tunnel) : (Server.login env).sent i t = [] := by
  unfold Server.login
  simp only [sent_recvVarW_bind, sent_recvW_bind]
  rfl

/-- Of a login the tunnel heeds the last byte. -/
theorem heeded_loggedIn {env env' : Env} {t t' : Tunnel} (ht : t.heeded = t'.heeded) (version : UInt8)
    {account account' : Bytes} (unused : UInt8) (h : account.length = 128) (h' : account'.length = 128) :
    (Server.loggedIn env (version :: (account ++ [unused])) t).heeded =
      (Server.loggedIn env' (version :: (account' ++ [unused])) t').heeded := by
  have hlast : ∀ {a : Bytes}, a.length = 128 → field (version :: (a ++ [unused])) 129 1 = [unused] := by
    intro a ha
    show (List.drop 128 (a ++ [unused])).take 1 = [unused]
    rw [List.drop_left' ha]
    rfl
  unfold Server.loggedIn
  rw [hlast h, hlast h']
  show { t.heeded with unused := unused, loggedIn := true, cuboid := { t.heeded.cuboid with start := false } } =
    { t'.heeded with unused := unused, loggedIn := true, cuboid := { t'.heeded.cuboid with start := false } }
  rw [ht]

/-- Two logins that differ in name and key. -/
theorem alike_logins {env env' : Env} {t t' : Tunnel} (ht : t.heeded = t'.heeded) (seen : Socket × Bytes → Bool)
    (l : ServerLocals) (version : UInt8) {account account' : Bytes} (unused : UInt8) (h : account.length = 128)
    (h' : account'.length = 128) : (tunnelServer env l).Alike Tunnel.heeded seen (loginOf version account unused) t
      (tunnelServer env' l) (loginOf version account' unused) t' := by
  apply alike_of_dispatch
  unfold Server.dispatch
  by_cases hfucked : l.fucked = false
  · rw [if_pos ⟨rfl, hfucked⟩, if_pos ⟨rfl, hfucked⟩]
    have hrun : ∀ (env : Env) {a : Bytes} (s : Tunnel), a.length = 128 →
        (Server.login env).run (version :: (a ++ [unused])) s =
          ⟨some { fucked := true }, [], Server.loggedIn env (version :: (a ++ [unused])) s, []⟩ := by
      intro env a s ha
      have hlen : (version :: (a ++ [unused])).length = 130 := by simp [ha]
      have htakes := Server.takes_login env s hlen []
      rw [List.append_nil] at htakes
      exact htakes
    constructor
    · rw [hrun env t h, hrun env' t' h']
    · rw [hrun env t h, hrun env' t' h']
      exact heeded_loggedIn ht version unused h h'
    · rw [sent_login, sent_login]
  · -- a second login is for no handler
    rw [if_neg (fun hlogin => hfucked hlogin.2), if_neg (fun hlogin => hfucked hlogin.2)]
    exact ⟨rfl, ht, rfl⟩

/-! ## What the tunnel keeps for nobody -/

/-- Good pairs of turns, for what is looked at. -/
def KeptForNobody (seen : Socket × Bytes → Bool) (c : Turns ThreadId Tunnel Socket Locals) (i : ThreadId)
    (x x' : Env × Bytes) : Prop :=
  SameButAccount c i x x' ∧ ∀ text, activity x'.1 x'.2 i (c.locals i) = .command text → Overlooks seen text

theorem blindTurn_keptForNobody {seen : Socket × Bytes → Bool} {c : Turns ThreadId Tunnel Socket Locals} {i : ThreadId}
    {x x' : Env × Bytes} (h : KeptForNobody seen c i x x') : BlindTurn tunnel Tunnel.heeded seen c i x x' := by
  obtain ⟨env, input⟩ := x
  obtain ⟨env', input'⟩ := x'
  intro t' ht
  show (round env i (c.locals i)).Alike Tunnel.heeded seen input c.state (round env' i (c.locals i)) input' t'
  obtain ⟨⟨hinput, hmemory⟩ | ⟨rfl, version, account, account', unused, hlen, hlen', hlogin, hlogin'⟩, hseen⟩ := h
  · obtain rfl : input = input' := hinput
    exact hmemory.alike (alike_round ht i (c.locals i) hseen)
  · -- two logins
    obtain rfl : input = _ := hlogin
    obtain rfl : input' = _ := hlogin'
    cases hl : c.locals .tunnelServer with
    | tunnelServer l => exact (alike_logins ht seen l version unused hlen hlen').map Locals.tunnelServer
    | _ => exact ⟨rfl, ht, rfl⟩

/-- What the memory holds does not decide whether a thread is started. -/
theorem started_any_memory (env env' : Env) (i : ThreadId) {t t' : Tunnel} (h : t.loggedIn = t'.loggedIn) :
    (tunnel env).started i t = (tunnel env').started i t' := by
  cases i with
  | main => rfl
  | tunnelServer => rfl
  | mcConnect => exact h
  | builder => exact h

/-- Two runs that differ in what nobody heeds, as far as one looks. -/
theorem alike_runs {seen : Socket × Bytes → Bool} {t t' : Tunnel} (ht : t.heeded = t'.heeded)
    {sched : List (ThreadId × (Env × Bytes) × Env × Bytes)}
    (h : Together tunnel (KeptForNobody seen) (beginning t) sched) :
    AlikeTurns Tunnel.heeded seen (turnsWith tunnel (beginning t) (firsts sched))
      (turnsWith tunnel (beginning t') (seconds sched)) := by
  have hstarted : ∀ env env' i (t t' : Tunnel), t.heeded = t'.heeded →
      (tunnel env).started i t = (tunnel env').started i t' := by
    intro env env' i t t' ht
    have hlogged : t.heeded.loggedIn = t'.heeded.loggedIn := congrArg Tunnel.loggedIn ht
    exact started_any_memory env env' i hlogged
  have hstart : AlikeTurns Tunnel.heeded seen (beginning t) (beginning t') := ⟨ht, rfl, rfl, rfl⟩
  exact turns_alike hstarted (fun _ _ _ _ => blindTurn_keptForNobody) hstart h

/-- A turn that runs 'ignore'. -/
def Ignores (c : Turns ThreadId Tunnel Socket Locals) (i : ThreadId) (x : Env × Bytes) : Prop :=
  ∃ text, activity x.1 x.2 i (c.locals i) = .command text ∧ arg0 text = some (ascii "ignore")

/-- The two runs look the same to the server, and to the client up to the messages; and where the second one never
    runs 'ignore' they send the same. -/
structure LooksTheSame (t : Tunnel) (c c' : Turns ThreadId Tunnel Socket Locals)
    (sched : List (ThreadId × (Env × Bytes) × Env × Bytes)) : Prop where
  server : sentTo tunnelSock c.sent = sentTo tunnelSock c'.sent
  client : (sentTo serverSock c.sent).filter (fun p => p.head? ≠ some 0x0d) =
    (sentTo serverSock c'.sent).filter (fun p => p.head? ≠ some 0x0d)
  ended : c.ended = c'.ended
  all : Together tunnel (fun c i _ x' => ¬ Ignores c i x') (beginning t) sched → c.sent = c'.sent

/-- What is seen of the packets decides what the server gets, and what the client gets but for messages. -/
theorem sentTo_of_filter {out out' : List (Socket × Bytes)}
    (h : out.filter besidesMessages = out'.filter besidesMessages) :
    sentTo tunnelSock out = sentTo tunnelSock out' ∧
      (sentTo serverSock out).filter (fun p => p.head? ≠ some 0x0d) =
        (sentTo serverSock out').filter (fun p => p.head? ≠ some 0x0d) := by
  have hserver : ∀ o : List (Socket × Bytes), sentTo tunnelSock o = sentTo tunnelSock (o.filter besidesMessages) := by
    intro o
    unfold sentTo
    rw [List.filter_filter]
    refine congrArg (List.map Prod.snd) (List.filter_congr fun e _ => ?_)
    by_cases he : e.1 = tunnelSock
    · simp [besidesMessages, he]
    · simp [he]
  have hclient : ∀ o : List (Socket × Bytes), (sentTo serverSock o).filter (fun p => p.head? ≠ some 0x0d) =
      sentTo serverSock (o.filter besidesMessages) := by
    intro o
    unfold sentTo
    rw [List.filter_map, List.filter_filter, List.filter_filter]
    refine congrArg (List.map Prod.snd) (List.filter_congr fun e _ => ?_)
    by_cases he : e.1 = serverSock
    · simp [besidesMessages, he]
    · simp [he]
  constructor
  · rw [hserver, hserver out', h]
  · rw [hclient, hclient, h]

/-- **What the tunnel keeps for nobody.** Two runs of the four threads from states that differ only in what nobody
    heeds, with the same inputs up to the account the client logs in with, and with memories that make no difference. -/
theorem unheeded_runs (t t' : Tunnel) (ht : t.heeded = t'.heeded)
    (sched : List (ThreadId × (Env × Bytes) × Env × Bytes)) (h : Together tunnel SameButAccount (beginning t) sched) :
    LooksTheSame t (turnsWith tunnel (beginning t) (firsts sched)) (turnsWith tunnel (beginning t') (seconds sched))
      sched := by
  have hlooked : Together tunnel (KeptForNobody besidesMessages) (beginning t) sched :=
    h.imp fun _ _ _ _ hsame => ⟨hsame, fun _ _ _ => rfl⟩
  have halike := alike_runs ht hlooked
  obtain ⟨hserver, hclient⟩ := sentTo_of_filter halike.sent
  refine ⟨hserver, hclient, halike.ended, fun hnone => ?_⟩
  have hevery : Together tunnel (KeptForNobody fun _ => true) (beginning t) sched :=
    (h.and hnone).imp fun _ _ _ _ hturn => ⟨hturn.1, fun text htext hignore => absurd ⟨text, htext, hignore⟩ hturn.2⟩
  have hall := alike_runs ht hevery
  simpa using hall.sent

/-- A memory in which nothing but `b` has been left. -/
def leftover (b : UInt8) : Env := { junk := fun _ _ => b, position := fun _ _ => b }

/-- A client logs in under two names, which stay in the memory. It says where it is, and another player says
    something. -/
def underTwoNames : List (ThreadId × (Env × Bytes) × Env × Bytes) :=
  [(.tunnelServer, ({}, loginOf 7 (List.replicate 128 65) 0), ({}, loginOf 7 (List.replicate 128 66) 0)),
    (.tunnelServer, (leftover 65, 0x08 :: [255, 0, 96, 0, 64, 0, 32, 4, 5]),
      (leftover 66, 0x08 :: [255, 0, 96, 0, 64, 0, 32, 4, 5])),
    (.mcConnect, ({}, []), ({}, [])),
    (.mcConnect, (leftover 65, 0x0d :: 3 :: padded (ascii "hi")), (leftover 66, 0x0d :: 3 :: padded (ascii "hi")))]

/-- Nobody is ignored, and everybody is. -/
theorem unheeded_runs_ignored :
    LooksTheSame {} (turnsWith tunnel (beginning {}) (firsts underTwoNames))
      (turnsWith tunnel (beginning { ignoreN := 1 }) (seconds underTwoNames)) underTwoNames := by
  refine unheeded_runs {} { ignoreN := 1 } rfl underTwoNames ⟨?_, ?_, ?_, ?_, trivial⟩
  · exact Or.inr ⟨rfl, 7, List.replicate 128 65, List.replicate 128 66, 0, List.length_replicate, List.length_replicate,
      rfl, rfl⟩
  · -- the position is there in full
    exact Or.inl ⟨rfl, noDifference_client (n := 9) (by decide) (by decide) (by decide) _⟩
  · exact Or.inl ⟨rfl, NoDifference.refl _ _ _⟩
  · -- and so is the message
    exact Or.inl ⟨rfl, noDifference_server (n := 65) (by simp [serverPackets]) (by decide) (by decide) _⟩

/-! ## What the toggles cover up -/

/-- Two positions while hidden. -/
def BothHidden (t : Tunnel) (input input' : Bytes) : Prop :=
  t.hide = true ∧ ∃ p p', p.length = 9 ∧ p'.length = 9 ∧ input = 0x08 :: p ∧ input' = 0x08 :: p'

/-- Two messages of a gimped user, neither of which is a command or begins with a slash, and random numbers from the
    same place on. -/
def BothGimped (env env' : Env) (t : Tunnel) (input input' : Bytes) : Prop :=
  t.gimped = true ∧ env.rand = env'.rand ∧ ∃ what m m', m.length = 64 ∧ m'.length = 64 ∧
    Server.isCommand env m = false ∧ Server.isCommand env' m' = false ∧ byte m ≠ 47 ∧ byte m' ≠ 47 ∧
    input = 0x0d :: what :: m ∧ input' = 0x0d :: what :: m'

/-- Two clicks of a painting user at one place, with what is in the hand, and whether it is placed or broken. -/
def BothPainted (t : Tunnel) (input input' : Bytes) : Prop :=
  t.paint = true ∧ t.zPlace = false ∧ ∃ place hand hand', place.length = 6 ∧ hand.length = 2 ∧ hand'.length = 2 ∧
    input = 0x05 :: (place ++ hand) ∧ input' = 0x05 :: (place ++ hand')

/-- Two turns, each with a memory and an input: the same input, where it makes no difference over which memory, or two
    packets of the client between which a toggle makes no difference, over any memories. -/
def Covered (c : Turns ThreadId Tunnel Socket Locals) (i : ThreadId) (x x' : Env × Bytes) : Prop :=
  x.2 = x'.2 ∧ NoDifference c.state i (c.locals i) x.2 x.1 x'.1 ∨
    i = .tunnelServer ∧
      (BothHidden c.state x.2 x'.2 ∨ BothGimped x.1 x'.1 c.state x.2 x'.2 ∨ BothPainted c.state x.2 x'.2)

section Covered

variable {env env' : Env} {t t' : Tunnel} (ht : t.read = t'.read) (l : ServerLocals) {input input' : Bytes}
include ht

/-- A hidden position is kept where nobody reads it. -/
theorem alike_hidden (h : BothHidden t input input') : (tunnelServer env l).Alike Tunnel.read (fun _ => true) input t
    (tunnelServer env' l) input' t' := by
  obtain ⟨hhide, p, p', hlen, hlen', rfl, rfl⟩ := h
  have hhide' : t'.hide = true := (congrArg Tunnel.hide ht).symm.trans hhide
  apply alike_of_dispatch
  rw [Server.dispatch_of_mem (Server.own_mem (e := (0x08, Server.posUpdate env)) (by repeat constructor)),
    Server.dispatch_of_mem (Server.own_mem (e := (0x08, Server.posUpdate env')) (by repeat constructor))]
  refine Alike.map ?_ (fun _ => l)
  have hrun := Server.takes_posUpdate_hidden env t hhide hlen []
  have hrun' := Server.takes_posUpdate_hidden env' t' hhide' hlen' []
  rw [List.append_nil] at hrun hrun'
  have hsent : ∀ (env : Env) (j : Bytes) (s : Tunnel), s.hide = true → (Server.posUpdate env).sent j s = [] := by
    intro env j s hs
    unfold Server.posUpdate
    simp only [sent_recvVarW_bind, sent_getState_bind, hs, Bool.true_eq_false, if_false]
    rfl
  constructor
  · rw [hrun, hrun']
  · rw [hrun, hrun']
    exact ht
  · rw [hsent env p t hhide, hsent env' p' t' hhide']

/-- Of a gimped message only the kind matters. -/
theorem alike_gimped (h : BothGimped env env' t input input') :
    (tunnelServer env l).Alike Tunnel.read (fun _ => true) input t (tunnelServer env' l) input' t' := by
  obtain ⟨hgimped, hrand, what, m, m', hlen, hlen', hm, hm', hslash, hslash', rfl, rfl⟩ := h
  have hgimped' : t'.gimped = true := (congrArg Tunnel.gimped ht).symm.trans hgimped
  -- either message becomes the same code
  have hsaid : ∀ {e : Env} {m : Bytes} {s : Tunnel}, e.rand = env.rand → Server.isCommand e m = false → byte m ≠ 47 →
      s.gimped = true → (Server.said e [what] m).run ([] : Bytes) s =
        (onlyIf (what = 0) (Server.gimpMessage env what) : Code Unit).run ([] : Bytes) s ∧
      (Server.said e [what] m).sent ([] : Bytes) s =
        (onlyIf (what = 0) (Server.gimpMessage env what) : Code Unit).sent ([] : Bytes) s := by
    intro e m s hrand hm hslash hs
    have hgimp : Server.gimpMessage e what = Server.gimpMessage env what := by
      unfold Server.gimpMessage rand
      rw [hrand]
    unfold Server.said
    rw [if_neg (ne_true_of_eq_false hm), run_getState_bind, sent_getState_bind, if_pos ⟨hs, hslash⟩]
    rw [← hgimp]
    exact ⟨rfl, rfl⟩
  have hgimp : Calmly (onlyIf (what = 0) (Server.gimpMessage env what) : Code Unit) :=
    Tame.onlyIf (Server.calmly_gimpMessage env what)
  have halike : (Server.said env [what] m).Alike Tunnel.read (fun _ => true) [] t
      (Server.said env' [what] m') [] t' := by
    obtain ⟨hrun, hsent⟩ := hsaid rfl hm hslash hgimped
    obtain ⟨hrun', hsent'⟩ := hsaid hrand.symm hm' hslash' hgimped'
    have hsame := hgimp.alike (fun _ => true) [] ht
    constructor
    · rw [hrun, hrun']
      exact hsame.result
    · rw [hrun, hrun']
      exact hsame.state
    · rw [hsent, hsent']
      exact hsame.sent
  have hround := halike.map (fun _ => l)
  have hrun := run_round_said env l what hlen [] t
  have hrun' := run_round_said env' l what hlen' [] t'
  have hsent := sent_round_said env l what hlen [] t
  have hsent' := sent_round_said env' l what hlen' [] t'
  rw [List.append_nil] at hrun hrun' hsent hsent'
  constructor
  · rw [hrun, hrun']
    exact hround.result
  · rw [hrun, hrun']
    exact hround.state
  · rw [hsent, hsent']
    exact halike.sent

/-- A painting user always places, and always the paint. -/
theorem alike_painted (h : BothPainted t input input') : (tunnelServer env l).Alike Tunnel.read (fun _ => true) input
    t (tunnelServer env' l) input' t' := by
  obtain ⟨hpaint, hz, place, hand, hand', hplace, hhand, hhand', rfl, rfl⟩ := h
  have hpaint' : t'.paint = true := (congrArg Tunnel.paint ht).symm.trans hpaint
  have hz' : t'.zPlace = false := (congrArg Tunnel.zPlace ht).symm.trans hz
  have hbid : t.read.paintBid = t'.read.paintBid := by rw [ht]
  apply alike_of_dispatch
  rw [Server.dispatch_of_mem (Server.own_mem (e := (0x05, Server.setBlockClick env)) (by repeat constructor)),
    Server.dispatch_of_mem (Server.own_mem (e := (0x05, Server.setBlockClick env')) (by repeat constructor))]
  refine Alike.map ?_ (fun _ => l)
  have hfield : ∀ {hand : Bytes} (k : Nat), k + 2 ≤ 6 → field (place ++ hand) k 2 = field place k 2 := by
    intro hand k hk
    unfold field
    rw [List.drop_append_of_le_length (by omega), List.take_append_of_le_length (by rw [List.length_drop]; omega)]
  have hlen : (place ++ hand).length = 8 := by simp [hplace, hhand]
  have hlen' : (place ++ hand').length = 8 := by simp [hplace, hhand']
  have hrun := Server.takes_setBlockClick env t hz hlen []
  have hrun' := Server.takes_setBlockClick env' t' hz' hlen' []
  rw [List.append_nil] at hrun hrun'
  have hsent : ∀ (env : Env) {hand : Bytes} {s : Tunnel}, hand.length = 2 → s.zPlace = false → s.paint = true →
      (Server.setBlockClick env).sent (place ++ hand) s = [(tunnelSock, 0x05 :: (field place 0 2 ++
        (field place 2 2 ++ (field place 4 2 ++ [1, s.paintBid]))))] := by
    intro env hand s hhand hs hpainting
    have hlen : (place ++ hand).length = 8 := by simp [hplace, hhand]
    simp (disch := omega) only [Server.setBlockClick, sent_recvVarW_first, sent_recvVarW_field, sent_getState_bind, hs,
      hpainting, Bool.false_eq_true, if_false, if_true]
    rw [hfield 0 (by decide), hfield 2 (by decide), hfield 4 (by decide)]
    show [(tunnelSock, _)] = _
    simp
  constructor
  · rw [hrun, hrun']
  · rw [hrun, hrun']
    exact ht
  · rw [hsent env hhand hz hpaint, hsent env' hhand' hz' hpaint', show t.paintBid = t'.paintBid from hbid]

end Covered

theorem blindTurn_covered {c : Turns ThreadId Tunnel Socket Locals} {i : ThreadId} {x x' : Env × Bytes}
    (h : Covered c i x x') : BlindTurn tunnel Tunnel.read (fun _ => true) c i x x' := by
  obtain ⟨env, input⟩ := x
  obtain ⟨env', input'⟩ := x'
  intro t' ht
  show (round env i (c.locals i)).Alike Tunnel.read (fun _ => true) input c.state (round env' i (c.locals i)) input' t'
  rcases h with ⟨hinput, hmemory⟩ | ⟨rfl, h⟩
  · obtain rfl : input = input' := hinput
    exact hmemory.alike ((writes_round env' i (c.locals i)).alike (fun _ => true) input ht)
  · cases hl : c.locals .tunnelServer with
    | tunnelServer l =>
        refine Alike.map ?_ Locals.tunnelServer
        rcases h with h | h | h
        · exact alike_hidden ht l h
        · exact alike_gimped ht l h
        · exact alike_painted ht l h
    | _ => exact ⟨rfl, ht, rfl⟩

/-- A hidden user says where he is, and clicks while he paints, with stone or with nothing in the hand. The server lets
    him hold something over what that has left. -/
def coveredUp : List (ThreadId × (Env × Bytes) × Env × Bytes) :=
  [(.tunnelServer, ({}, 0x08 :: [255, 0, 96, 0, 64, 0, 32, 4, 5]), ({}, 0x08 :: [255, 7, 7, 7, 7, 7, 7, 7, 7])),
    (.tunnelServer, (leftover 96, 0x05 :: ([0, 1, 0, 2, 0, 3] ++ [1, 1])),
      (leftover 7, 0x05 :: ([0, 1, 0, 2, 0, 3] ++ [0, 0]))),
    (.tunnelServer, (leftover 96, 0x14 :: [1, 0]), (leftover 7, 0x14 :: [1, 0]))]

end LavaTunnel
