import LavaTunnel.Correctness.Access
import LavaTunnel.Correctness.Clicks
import LavaTunnel.Correctness.Isolation
import LavaTunnel.Correctness.Substreams

/-!
# `LavaTunnel.Correctness.Session` — what holds all the time

Invariants of the four threads, for every run, whatever arrives, whoever has the next turn, and whatever the turn finds
in uninitialised memory.

* `session_runs` — while every write stays in its table or buffer (`WritesFit`), the settings stay and so do the records
  around the table, every player is in one of the three modes, and at most one point is set;
* `login_once` — the server gets one login, from `mcConnect`, after the client's own, and it is the login of the
  account as it is in every later state.
-/

namespace LavaTunnel

open Wire Wire.Prog

/-! ## The state -/

/-- What `main` has set up: the account, the hacks, and the texts and names from the files. -/
def Tunnel.settings (t : Tunnel) : Bytes × Bytes × Int × Int × Bytes × (Nat → UInt8) × Int × (Nat → Bytes) × Int :=
  (t.username, t.mppass, t.useCPE, t.hax, t.haxType, t.gimp, t.gimpN, t.ignores, t.ignoreN)

/-- The modes of a player. -/
def IsMode (mode : Int) : Prop := mode = 0 ∨ mode = 1 ∨ mode = 2

/-- What holds of the state all the time; `t₀` is the one that `main` has set up. -/
structure Session (t₀ t : Tunnel) : Prop where
  settings : t.settings = t₀.settings
  around : ∀ i, inTable i = false → t.player i = t₀.player i
  modes : ∀ i, IsMode (t.player i).mode
  type : t.cuboid.type = 0
  waits : Waits t

theorem ModesIn.all {M : Int → Prop} {t t' : Tunnel} (h : ModesIn M t t') (ht : ∀ i, M (t.player i).mode) (i : Int) :
    M (t'.player i).mode := by
  rcases h i with hsame | hnew
  · rw [hsame]
    exact ht i
  · exact hnew

/-- A command gives the modes 1 and 2, and takes them. -/
theorem modes_commanded (env : Env) (text : Bytes) (t : Tunnel) : ModesIn IsMode t (commanded env text t) := by
  by_cases hplaces : Places text
  · rcases hplaces with rfl | hpaste | hcopy | hz
    · rw [commanded_cancel]
      intro i
      unfold cancelled
      by_cases hi : 0 ≤ i ∧ i < 256
      · simp only [if_pos hi]
        exact Or.inr (Or.inl rfl)
      · simp only [if_neg hi]
        refine Or.inl ?_
        split_ifs <;> rfl
    · rw [commanded_paste env t hpaste]
      cases arg1 text with
      | none => exact modesIn_refl t
      | some name => exact fun _ => Or.inl rfl
    · rw [commanded_copy env t hcopy]
      cases arg1 text with
      | none => exact modesIn_refl t
      | some name => exact fun _ => Or.inl rfl
    · rw [commanded_z env t hz]
      exact fun _ => Or.inl rfl
  · have htoggles : Toggling IsMode t (commanded env text t) :=
      (toggling_commandFunc env (M := IsMode) (Or.inr (Or.inl rfl)) (fun _ => Or.inr (Or.inr rfl)) hplaces).run
        toggling_refl Toggling.trans [] t
    exact htoggles.2

/-- A click leaves the players and the type alone. -/
theorem pointed_frame (p : Point) (blocktype : UInt8) (t : Tunnel) :
    (pointed p blocktype t).player = t.player ∧ (pointed p blocktype t).cuboid.type = t.cuboid.type := by
  have hcuboid : (cuboidPointed p blocktype t).player = t.player ∧
      (cuboidPointed p blocktype t).cuboid.type = t.cuboid.type := by
    unfold cuboidPointed
    split_ifs <;> exact ⟨rfl, rfl⟩
  have hpaste : ∀ t, (pastePointed p t).player = t.player := by
    intro t
    unfold pastePointed
    split_ifs <;> rfl
  have hcopy : ∀ t, (copyPointed p t).player = t.player := by
    intro t
    unfold copyPointed
    split_ifs <;> rfl
  refine ⟨?_, ?_⟩
  · unfold pointed
    rw [hcopy, hpaste, hcuboid.1]
  · rw [pointed_cuboid]
    exact hcuboid.2

/-- Nobody changes the settings. -/
theorem settings_did {env : Env} {t t' : Tunnel} {sent : List (Socket × Bytes)} {a : Activity}
    (h : Did env t t' sent a) : t'.settings = t.settings := by
  have huser : ∀ {t t' : Tunnel}, t'.besidesUser = t.besidesUser → t'.settings = t.settings := by
    intro t t' hsame
    have hsettings : t'.besidesUser.settings = t.besidesUser.settings := by rw [hsame]
    exact hsettings
  cases a with
  | nothing => rw [h.1]
  | command text => rw [h.1]; exact huser (besidesUser_commanded env text t)
  | login =>
      obtain ⟨⟨unused, rfl⟩, -⟩ := h
      rfl
  | server =>
      have hsettings : t'.besidesServer.settings = t.besidesServer.settings := by rw [h.1.1]
      exact hsettings
  | click =>
      obtain ⟨⟨p, blocktype, rfl⟩, -⟩ := h
      split_ifs
      · exact huser (besidesUser_pointed p blocktype t)
      · rfl
  | client =>
      have hsettings : t'.besidesClient.settings = t.besidesClient.settings := by
        rw [h.1.besides]
      exact hsettings
  | build =>
      have hsettings : t'.besidesBuilder.settings = t.besidesBuilder.settings := by rw [h.1.besides]
      exact hsettings

/-- **Every activity** leaves the modes among the three, and the type. -/
theorem modes_did {env : Env} {t t' : Tunnel} {sent : List (Socket × Bytes)} {a : Activity}
    (h : Did env t t' sent a) : ModesIn IsMode t t' ∧ (t.cuboid.type = 0 → t'.cuboid.type = 0) := by
  have hsame : ∀ {t t' : Tunnel}, t'.player = t.player ∧ t'.cuboid.type = t.cuboid.type →
      ModesIn IsMode t t' ∧ (t.cuboid.type = 0 → t'.cuboid.type = 0) := by
    rintro t t' ⟨hplayer, htype⟩
    refine ⟨fun i => Or.inl ?_, fun h0 => htype.trans h0⟩
    rw [hplayer]
  cases a with
  | nothing => rw [h.1]; exact hsame ⟨rfl, rfl⟩
  | command text => rw [h.1]; exact ⟨modes_commanded env text t, type_commanded env text t⟩
  | login =>
      obtain ⟨⟨unused, rfl⟩, -⟩ := h
      exact hsame ⟨rfl, rfl⟩
  | server =>
      have htype : t'.besidesServer.cuboid.type = t.besidesServer.cuboid.type := by rw [h.1.1]
      exact ⟨fun i => (h.1.2 i).imp_right Or.inl, fun h0 => htype.trans h0⟩
  | click =>
      obtain ⟨⟨p, blocktype, rfl⟩, -⟩ := h
      split_ifs
      · exact hsame (pointed_frame p blocktype t)
      · exact hsame ⟨rfl, rfl⟩
  | client =>
      have hplayer : t'.besidesClient.player = t.besidesClient.player := by rw [h.1.besides]
      have htype : t'.besidesClient.cuboid.type = t.besidesClient.cuboid.type := by
        rw [h.1.besides]
      exact hsame ⟨hplayer, htype⟩
  | build =>
      have hplayer : t'.besidesBuilder.player = t.besidesBuilder.player := by rw [h.1.besides]
      have htype : t'.besidesBuilder.cuboid.type = t.besidesBuilder.cuboid.type := by rw [h.1.besides]
      exact hsame ⟨hplayer, htype⟩

/-! ## The records around the table -/

section Around

variable {env : Env} {i : Int} (hi : inTable i = false)
include hi

/-- What a run that is confined to the table leaves alone. -/
theorem Confined.player_around {α : Type} {c : Code α} {input : Bytes} {t : Tunnel}
    (h : Confined playerTable c input t) : (c.run input t).state.player i = t.player i := by
  have hbeyond : keepIn (fun i => !inTable i) {} (c.run input t).state.player i =
      keepIn (fun i => !inTable i) {} t.player i := congrArg (fun memory => memory.1 i) (h t rfl).1
  have hout : (!inTable i) = true := by rw [hi]; rfl
  rwa [keepIn_of_mem (M := fun i => !inTable i) hout, keepIn_of_mem (M := fun i => !inTable i) hout] at hbeyond

/-- `find` reads below the table, but no command writes around it. -/
theorem player_around_commanded (env : Env) (text : Bytes) (t : Tunnel) :
    (commanded env text t).player i = t.player i := by
  by_cases hfinds : Finds text
  · have hsame : commanded env text t = t := by
      obtain ⟨hfind, hname⟩ := hfinds
      obtain ⟨name, hname⟩ := Option.ne_none_iff_exists'.mp hname
      unfold commanded
      rw [commandFunc_of_mem (c := cmdFind env (arg1 text)) (by simp [argCommands]) hfind, run_bind_pure, hname]
      unfold cmdFind
      cases hfound : findPlayer t (-1 :: ids) (sameName env name) <;> simp [hfound, tunnelMsg]
    rw [hsame]
  · have hguarded : Guarded playerTable (commandFunc env text) :=
      guarded_commandFunc (fun _ => id) env fun h => absurd h hfinds
    exact Confined.player_around hi hguarded.confined

/-- A turn that stays in the table. -/
theorem player_around_round (who : ThreadId) (l : Locals) {input : Bytes} {t : Tunnel}
    (hstays : StaysInTable env t input l) : ((round env who l).run input t).state.player i = t.player i :=
  Confined.player_around hi
    (confined_round env (fun _ => id) (fun _ => rfl) who l ((accesses_iff env l).mpr hstays))

end Around

/-- What a turn writes stays in the table and in the buffer for the name of a file: the ids that `mcConnect` keeps in a
    signed `char` are below 128, and the name in a command has at most 50 letters. -/
def WritesFit (c : Turns ThreadId Tunnel Socket Locals) (i : ThreadId) (env : Env) (input : Bytes) : Prop :=
  (i = .mcConnect → StaysInTable env c.state input (c.locals i)) ∧ ∀ text ∈ commandIn env i input, NameFits text

/-- **Every turn** whose writes fit leaves the records around the table alone. -/
theorem around_turn {env : Env} {c : Turns ThreadId Tunnel Socket Locals} {who : ThreadId} {input : Bytes}
    (hfits : WritesFit c who env input) {i : Int} (hi : inTable i = false) :
    ((tunnel env).turn c who input).state.player i = c.state.player i := by
  rcases turn_did env c who input with hsame | ⟨sent, -, hdid⟩
  · rw [hsame]
  cases hactivity : activity env input who (c.locals who) with
  | nothing =>
      rw [hactivity] at hdid
      rw [hdid.1]
  | command text =>
      rw [hactivity] at hdid
      rw [hdid.1]
      exact player_around_commanded hi env text c.state
  | login =>
      rw [hactivity] at hdid
      obtain ⟨⟨unused, hstate⟩, -⟩ := hdid
      rw [hstate]
  | server =>
      obtain rfl := activity_server hactivity
      rcases turn_cases c .mcConnect input with hsame | ⟨hstate, -⟩
      · rw [hsame]
      · rw [hstate]
        exact player_around_round hi .mcConnect (c.locals .mcConnect) (hfits.1 rfl)
  | click =>
      rw [hactivity] at hdid
      obtain ⟨⟨p, blocktype, hstate⟩, -⟩ := hdid
      rw [hstate]
      split_ifs
      · rw [(pointed_frame p blocktype c.state).1]
      · rfl
  | client =>
      rw [hactivity] at hdid
      have hplayer : ((tunnel env).turn c who input).state.besidesClient.player = c.state.besidesClient.player := by
        rw [hdid.1.besides]
      exact congrFun hplayer i
  | build =>
      rw [hactivity] at hdid
      have hplayer : ((tunnel env).turn c who input).state.besidesBuilder.player = c.state.besidesBuilder.player := by
        rw [hdid.1.besides]
      exact congrFun hplayer i

/-! ## The login -/

/-- `mcConnect` before its loop, with no login sent, or in it, with the one login. -/
def LoginSent (c : Turns ThreadId Tunnel Socket Locals) : Prop :=
  (c.locals .mcConnect = .connecting ∧ substream tunnelSock [0x00] c.sent = []) ∨
    (∃ l, c.locals .mcConnect = .mcConnect l) ∧ c.state.loggedIn = true ∧
      substream tunnelSock [0x00] c.sent = [loginPacket c.state.account]

/-- The phases of the login: `tunnelServer` knows whether the client has logged in, and `mcConnect` waits for it. -/
structure Phases (c : Turns ThreadId Tunnel Socket Locals) : Prop where
  owned : Owned c
  fucked : c.locals .tunnelServer = .tunnelServer ⟨c.state.loggedIn⟩
  login : LoginSent c

/-- Only the two logins change the account. -/
theorem account_did {env : Env} {t t' : Tunnel} {sent : List (Socket × Bytes)} {a : Activity}
    (h : Did env t t' sent a) (hclient : a ≠ .client) (hlogin : a ≠ .login) : t'.account = t.account := by
  have huser : ∀ {t t' : Tunnel}, t'.besidesUser = t.besidesUser → t'.account = t.account := by
    intro t t' hsame
    have haccount : t'.besidesUser.account = t.besidesUser.account := by rw [hsame]
    exact haccount
  cases a with
  | nothing => rw [h.1]
  | command text => rw [h.1]; exact huser (besidesUser_commanded env text t)
  | login => exact absurd rfl hlogin
  | server =>
      have haccount : t'.besidesServer.account = t.besidesServer.account := by rw [h.1.1]
      exact haccount
  | click =>
      obtain ⟨⟨p, blocktype, rfl⟩, -⟩ := h
      split_ifs
      · exact huser (besidesUser_pointed p blocktype t)
      · rfl
  | client => exact absurd rfl hclient
  | build =>
      have haccount : t'.besidesBuilder.account = t.besidesBuilder.account := by rw [h.1.besides]
      exact haccount

/-- A login that is not one for the server is one that nobody sends. -/
theorem substream_login_did {env : Env} {t t' : Tunnel} {sent : List (Socket × Bytes)} {a : Activity}
    (h : Did env t t' sent a) (hlogin : a ≠ .login) : substream tunnelSock [0x00] sent = [] := by
  have hmade : ∀ {bs : Bytes}, bs.head? ≠ some 0x00 → ofKinds [0x00] bs = false := by
    intro bs hhead
    cases bs with
    | nil => rfl
    | cons id bs => exact decide_eq_false fun hid => hhead (congrArg some (List.mem_singleton.mp hid))
  cases a with
  | nothing => rw [h.2]; rfl
  | command text => exact substream_eq_nil fun e he _ => hmade (h.2 e he).head_ne
  | login => exact absurd rfl hlogin
  | server => exact substream_eq_nil fun e he hto => hmade (h.2 e he (by rw [hto]; decide)).head_ne
  | click => exact substream_eq_nil fun e he _ => hmade (h.2 e he).head_ne
  | client => exact substream_eq_nil fun e he _ => hmade (h.2 e he).2
  | build => exact substream_eq_nil fun e he _ => hmade (h.2 e he).head_ne

/-- A turn that leaves the locals of the two threads and the account alone, and sends no login. -/
theorem phases_same {c c' : Turns ThreadId Tunnel Socket Locals} (h : Phases c) (howned : Owned c')
    (hserver : c'.locals .tunnelServer = c.locals .tunnelServer)
    (hmc : c'.locals .mcConnect = c.locals .mcConnect) (haccount : c'.state.account = c.state.account)
    (hsent : substream tunnelSock [0x00] c'.sent = substream tunnelSock [0x00] c.sent) : Phases c' := by
  have hlogged : c'.state.loggedIn = c.state.loggedIn := congrArg (fun account => account.2.2.2) haccount
  refine ⟨howned, ?_, ?_⟩
  · rw [hserver, h.fucked, hlogged]
  · unfold LoginSent
    rw [hmc, haccount, hlogged, hsent]
    exact h.login

/-- A turn of `tunnelServer`, before and after the login of the client. -/
theorem fucked_tunnelServer (env : Env) (t : Tunnel) (input : Bytes) :
    (((tunnelServer env ⟨t.loggedIn⟩).run input t).result.getD ⟨t.loggedIn⟩).fucked =
        ((tunnelServer env ⟨t.loggedIn⟩).run input t).state.loggedIn ∧
      (t.loggedIn = true → ((tunnelServer env ⟨t.loggedIn⟩).run input t).state.account = t.account) := by
  cases input with
  | nil =>
      rw [tunnelServer, run_recvW_bind]
      exact ⟨rfl, fun _ => rfl⟩
  | cons id i =>
      rw [tunnelServer, run_recv_id env Prog.exit (fun id => Server.dispatch env id ⟨t.loggedIn⟩)]
      by_cases hlogin : id = 0x00 ∧ t.loggedIn = false
      · have hrun : ((Server.dispatch env id ⟨t.loggedIn⟩).run i t).result = some ⟨true⟩ ∧
            ((Server.dispatch env id ⟨t.loggedIn⟩).run i t).state.loggedIn = true := by
          unfold Server.dispatch Server.login
          rw [if_pos hlogin]
          simp only [run_recvVarW_bind, run_recvW_bind]
          exact ⟨rfl, rfl⟩
        rw [hrun.1, hrun.2]
        exact ⟨rfl, fun h => absurd (h.symm.trans hlogin.2) (by decide)⟩
      · obtain ⟨c, hc, heq⟩ := Server.accounted_other env (l := ⟨t.loggedIn⟩) hlogin
        have haccount : (c.run i t).state.account = t.account := congrArg Prod.snd (hc.run_kept i t)
        have hlogged : (c.run i t).state.loggedIn = t.loggedIn := congrArg (fun account => account.2.2.2) haccount
        rw [heq, run_bind_pure]
        refine ⟨?_, fun _ => haccount⟩
        show (((c.run i t).result.map fun _ => (⟨t.loggedIn⟩ : ServerLocals)).getD ⟨t.loggedIn⟩).fucked = _
        rw [hlogged]
        cases (c.run i t).result with
        | none => rfl
        | some _ => rfl

section Turn

variable {env : Env} {c : Turns ThreadId Tunnel Socket Locals}

/-- **One turn.** -/
theorem phases_turn (h : Phases c) (i : ThreadId) (input : Bytes) : Phases ((tunnel env).turn c i input) := by
  by_cases hturn : c.ended = false ∧ (tunnel env).started i c.state = true
  swap
  · rw [turn_of_not hturn]
    exact h
  have howned : Owned ((tunnel env).turn c i input) := owned_turn i input h.owned
  obtain ⟨hstate, hsent⟩ : ((tunnel env).turn c i input).state = _ ∧ ((tunnel env).turn c i input).sent = _ :=
    turn_does input hturn
  have hdid : Did env c.state ((tunnel env).turn c i input).state
      (((tunnel env).body i (c.locals i)).sent input c.state) (activity env input i (c.locals i)) :=
    hstate ▸ did_round i (c.locals i)
  have hquiet : activity env input i (c.locals i) ≠ .login →
      substream tunnelSock [0x00] ((tunnel env).turn c i input).sent = substream tunnelSock [0x00] c.sent := by
    intro hlogin
    rw [hsent, substream_append, substream_login_did hdid hlogin, List.append_nil]
  -- only two threads have a part in the login
  by_cases hmc : i = .mcConnect
  · subst hmc
    have hserver : ((tunnel env).turn c .mcConnect input).locals .tunnelServer = c.locals .tunnelServer :=
      turn_locals_ne (by decide) input
    rcases h.login with ⟨hl, hnone⟩ | ⟨⟨l, hl⟩, hlogged, hone⟩
    · -- the login is sent
      have hself := turn_locals_self input hturn
      rw [hl] at hself
      have hbody : (tunnel env).body .mcConnect (c.locals .mcConnect) = (do mcLogin; pure (.mcConnect {})) := by
        rw [hl]
        rfl
      rw [hbody] at hstate hsent
      have haccount : ((tunnel env).turn c .mcConnect input).state.account = c.state.account := by
        rw [hstate]
        show (_, _, (if c.state.useCPE = 0 then 0 else if c.state.useCPE = 0 then 0 else c.state.unused), _) =
          c.state.account
        unfold Tunnel.account
        split_ifs <;> rfl
      have hlogged : ((tunnel env).turn c .mcConnect input).state.loggedIn = c.state.loggedIn :=
        congrArg (fun account => account.2.2.2) haccount
      refine ⟨howned, ?_, Or.inr ⟨⟨{}, hself⟩, hlogged.trans hturn.2, ?_⟩⟩
      · rw [hserver, h.fucked, hlogged]
      · have hlogin : (do mcLogin; pure (.mcConnect {}) : Code Locals).sent input c.state =
            [(tunnelSock, loginPacket c.state.account)] := by
          show [(tunnelSock, _)] = _
          simp [loginPacket, Tunnel.account]
        rw [hsent, substream_append, hnone, hlogin, haccount]
        exact substream_single 0x00 _
    · obtain ⟨l', hl'⟩ : ∃ l', ((tunnel env).turn c .mcConnect input).locals .mcConnect = .mcConnect l' := by
        rw [turn_locals_self input hturn, hl]
        show ∃ l', ((do let l' ← mcConnect env l; pure (.mcConnect l') : Code Locals).run input c.state).result.getD
          (.mcConnect l) = .mcConnect l'
        rw [run_bind_pure]
        cases ((mcConnect env l).run input c.state).result with
        | none => exact ⟨l, rfl⟩
        | some l' => exact ⟨l', rfl⟩
      have hactivity : activity env input .mcConnect (c.locals .mcConnect) = .server := by
        rw [hl]
        rfl
      have haccount := account_did hdid (by rw [hactivity]; decide) (by rw [hactivity]; decide)
      have hlogged' : ((tunnel env).turn c .mcConnect input).state.loggedIn = c.state.loggedIn :=
        congrArg (fun account => account.2.2.2) haccount
      refine ⟨howned, ?_, Or.inr ⟨⟨l', hl'⟩, hlogged'.trans hlogged, ?_⟩⟩
      · rw [hserver, h.fucked, hlogged']
      · rw [hquiet (by rw [hactivity]; decide), hone, haccount]
  by_cases hts : i = .tunnelServer
  · subst hts
    have hl := h.fucked
    obtain ⟨hfucked, haccount⟩ := fucked_tunnelServer env c.state input
    rw [← (turn_tunnelServer hturn.1 hl input).1] at hfucked haccount
    have hself : ((tunnel env).turn c .tunnelServer input).locals .tunnelServer =
        .tunnelServer (((tunnelServer env ⟨c.state.loggedIn⟩).run input c.state).result.getD ⟨c.state.loggedIn⟩) := by
      rw [turn_locals_self input hturn, hl]
      show ((do let l' ← tunnelServer env ⟨c.state.loggedIn⟩; pure (.tunnelServer l') : Code Locals).run input
        c.state).result.getD (.tunnelServer ⟨c.state.loggedIn⟩) = _
      rw [run_bind_pure]
      cases ((tunnelServer env ⟨c.state.loggedIn⟩).run input c.state).result with
      | none => rfl
      | some l' => rfl
    have hlogin := hquiet fun hlogin => absurd (activity_login hlogin).1 (by decide)
    refine ⟨howned, ?_, ?_⟩
    · rw [hself, ← hfucked]
    · unfold LoginSent
      rw [turn_locals_ne (by decide) input, hlogin]
      rcases h.login with hbefore | ⟨hloop, hlogged, hone⟩
      · exact Or.inl hbefore
      · -- the client has logged in, so the account stays
        have hsame := haccount hlogged
        have hlogged' : ((tunnel env).turn c .tunnelServer input).state.loggedIn = c.state.loggedIn :=
          congrArg (fun account => account.2.2.2) hsame
        exact Or.inr ⟨hloop, hlogged'.trans hlogged, by rw [hsame, hone]⟩
  · have hactivity : activity env input i (c.locals i) ≠ .client := fun hclient => hts (activity_client hclient)
    have hlogin : activity env input i (c.locals i) ≠ .login := fun hlogin => hmc (activity_login hlogin).1
    exact phases_same h howned (turn_locals_ne (Ne.symm hts) input) (turn_locals_ne (Ne.symm hmc) input)
      (account_did hdid hactivity hlogin) (hquiet hlogin)

end Turn

theorem phases_beginning {t : Tunnel} (h : t.loggedIn = false) : Phases (beginning t) := by
  refine ⟨owned_beginning t, ?_, Or.inl ⟨rfl, rfl⟩⟩
  show Locals.tunnelServer {} = .tunnelServer ⟨t.loggedIn⟩
  rw [h]

/-- **The phases of a run.** -/
theorem phases_runs {t : Tunnel} (ht : t.loggedIn = false) (sched : List (ThreadId × Env × Bytes)) :
    Phases (turnsWith tunnel (beginning t) sched) := by
  have hstep : ∀ (c : Turns ThreadId Tunnel Socket Locals) i env input, Phases c → True →
      Phases ((tunnel env).turn c i input) := fun c i env input hc _ => phases_turn hc i input
  exact turnsWith_invariant hstep (phases_beginning ht) (alwaysWith_true (beginning t) sched)

/-- **One login.** In every run of the four threads, whatever arrives: before `mcConnect` is in its loop the server
    has got no login; from then on it has got exactly one, the client has logged in, and the login is the one of the
    account, which nobody changes any more. -/
theorem login_once (env : Env) (t : Tunnel) (ht : t.loggedIn = false) (sched : List (ThreadId × Bytes)) :
    LoginSent ((tunnel env).turns (beginning t) sched) := by
  have hsame : turnsWith tunnel (beginning t) (sched.map fun e => (e.1, env, e.2)) = _ :=
    turnsWith_eq_turns tunnel env (beginning t) sched
  exact hsame ▸ (phases_runs ht (sched.map fun e => (e.1, env, e.2))).login

/-- **The settings of a run.** -/
theorem settings_runs (t : Tunnel) (sched : List (ThreadId × Env × Bytes)) :
    (turnsWith tunnel (beginning t) sched).state.settings = t.settings := by
  have hstep : ∀ (c : Turns ThreadId Tunnel Socket Locals) i env input, c.state.settings = t.settings → True →
      ((tunnel env).turn c i input).state.settings = t.settings := by
    intro c i env input hc _
    rcases turn_did env c i input with hsame | ⟨sent, -, hdid⟩
    · rw [hsame]
      exact hc
    · exact (settings_did hdid).trans hc
  have hbeginning : (beginning t).state.settings = t.settings := rfl
  exact turnsWith_invariant hstep hbeginning (alwaysWith_true (beginning t) sched)

/-- Two logins of the client, and one for the server. -/
theorem login_once_two : LoginSent ((tunnel {}).turns (beginning {})
    [(.tunnelServer, 0x00 :: List.replicate 130 32), (.mcConnect, []), (.tunnelServer, [0x00])]) :=
  login_once {} {} rfl _

/-- **What holds all the time.** In every run of the four threads, whatever arrives and whatever memory the turns find,
    as long as what they write stays in the table and in the buffer for the name of a file: the settings are those that
    `main` has set up, and so are the records around the table, every player is ignored, followed or plotmotioned, the
    cuboid has type 0, at most one point is set, and where clicks are kept somebody waits for them. -/
theorem session_runs (t : Tunnel) (hmodes : ∀ i, IsMode (t.player i).mode) (htype : t.cuboid.type = 0)
    (hwaits : Waits t) (sched : List (ThreadId × Env × Bytes))
    (hfits : AlwaysWith tunnel WritesFit (beginning t) sched) :
    Session t (turnsWith tunnel (beginning t) sched).state := by
  have hstep : ∀ (c : Turns ThreadId Tunnel Socket Locals) i env input, Session t c.state → WritesFit c i env input →
      Session t ((tunnel env).turn c i input).state := by
    intro c i env input hc hfit
    have hwaits' : Waits ((tunnel env).turn c i input).state := (waits_turn c i input hc.waits).1
    have haround : ∀ j, inTable j = false → ((tunnel env).turn c i input).state.player j = t.player j :=
      fun j hj => (around_turn hfit hj).trans (hc.around j hj)
    rcases turn_did env c i input with hsame | ⟨sent, -, hdid⟩
    · rw [hsame]
      exact hc
    · obtain ⟨hmode, htype'⟩ := modes_did hdid
      exact ⟨(settings_did hdid).trans hc.settings, haround, hmode.all hc.modes, htype' hc.type, hwaits'⟩
  have hstart : Session t (beginning t).state := ⟨rfl, fun _ _ => rfl, hmodes, htype, hwaits⟩
  exact turnsWith_invariant hstep hstart hfits

/-- The client logs in, the server adds the entity 7, and the user starts a copy and cancels it. -/
def entityAndCopy : List (ThreadId × Env × Bytes) :=
  [(.tunnelServer, {}, 0x00 :: 7 :: List.replicate 129 32), (.mcConnect, { junk := fun _ _ => 7 }, []),
    (.mcConnect, {}, 0x21 :: 7 :: List.replicate 136 32), (.main, {}, ascii "'copy hut"),
    (.main, {}, ascii "'cancel")]

/-- The state the program starts in. -/
theorem session_runs_default : Session {} (turnsWith tunnel (beginning {}) entityAndCopy).state := by
  have hloop : (turnsWith tunnel (beginning {}) (entityAndCopy.take 2)).locals .mcConnect = .mcConnect {} := rfl
  have hids : StaysInTable {} (turnsWith tunnel (beginning {}) (entityAndCopy.take 2)).state
      (0x21 :: 7 :: List.replicate 136 32)
      ((turnsWith tunnel (beginning {}) (entityAndCopy.take 2)).locals .mcConnect) := by
    rw [hloop]
    exact ⟨fun _ => by decide, fun h => absurd h (by decide)⟩
  have hfits : AlwaysWith tunnel WritesFit (beginning {}) entityAndCopy :=
    ⟨⟨by simp, by decide +kernel⟩, ⟨fun _ => trivial, by simp [commandIn]⟩, ⟨fun _ => hids, by simp [commandIn]⟩,
      ⟨by simp, by decide +kernel⟩, ⟨by simp, by decide +kernel⟩, trivial⟩
  exact session_runs {} (fun _ => Or.inl rfl) rfl ⟨Or.inl rfl, fun h => absurd h Bool.false_ne_true⟩ _ hfits

end LavaTunnel
