import LavaTunnel.Correctness.Extensions
import LavaTunnel.Correctness.Substreams

/-!
# `LavaTunnel.Correctness.Negotiation` — the extensions after a run

Which packets are complete, and what is sent for some of them, depends on the extensions that both sides have
announced. Two threads take the announcements down, and commands, clicks and the builder run in between. The flags
of a side are what its own announcements make of them, one after the other, whatever else happens: they do not depend
on how the two handshakes are interleaved.
-/

namespace LavaTunnel

open Wire Wire.Prog

/-- The name in an entry of a side, if a packet for thread `i` is one. -/
def entryFor (i : ThreadId) : ThreadId × Bytes → Option Bytes
  | (j, id :: payload) => if j = i ∧ id = 0x11 then some (field payload 0 64) else none
  | _ => none

/-- The announcements of a side, in order. -/
def announcements (i : ThreadId) (sched : List (ThreadId × Bytes)) : List Bytes := sched.filterMap (entryFor i)

/-- What a turn makes of the flags of a side. -/
def announcing (env : Env) (i : ThreadId) (cpe : CPE) (e : ThreadId × Bytes) : CPE :=
  match entryFor i e with
  | some name => Client.announce env name cpe
  | none => cpe

theorem entryFor_of_ne {i j : ThreadId} (h : j ≠ i) (input : Bytes) : entryFor i (j, input) = none := by
  cases input with
  | nil => rfl
  | cons id payload => exact if_neg fun hentry => h hentry.1

theorem entryFor_cons (i : ThreadId) (id : UInt8) (payload : Bytes) :
    entryFor i (i, id :: payload) = if id = 0x11 then some (field payload 0 64) else none := by
  show (if i = i ∧ id = 0x11 then some (field payload 0 64) else none) = _
  simp only [true_and]

/-- What no entry is in leaves the flags alone. -/
theorem announcing_of_none {env : Env} {i : ThreadId} {cpe : CPE} {e : ThreadId × Bytes} (h : entryFor i e = none) :
    announcing env i cpe e = cpe := by
  unfold announcing
  rw [h]

/-! ## One packet -/

section Packets

variable {env : Env} {t t' : Tunnel}

/-- Neither a command nor a click announces anything. -/
theorem flags_of_besidesUser (h : t'.besidesUser = t.besidesUser) :
    t'.cpeClient = t.cpeClient ∧ t'.cpeServer = t.cpeServer := by
  have hclient : t'.besidesUser.cpeClient = t.besidesUser.cpeClient := by rw [h]
  have hserver : t'.besidesUser.cpeServer = t.besidesUser.cpeServer := by rw [h]
  exact ⟨hclient, hserver⟩

/-- **What the packets of the server leave alone.** -/
theorem cpeServer_did {sent : List (Socket × Bytes)} {a : Activity} (h : Did env t t' sent a) (hclient : a ≠ .client) :
    t'.cpeServer = t.cpeServer := by
  cases a with
  | nothing => rw [h.1]
  | command text =>
      rw [h.1]
      exact (flags_of_besidesUser (besidesUser_commanded env text t)).2
  | login =>
      obtain ⟨⟨unused, rfl⟩, -⟩ := h
      rfl
  | server =>
      have hsame : t'.besidesServer.cpeServer = t.besidesServer.cpeServer := by rw [h.1.1]
      exact hsame
  | click =>
      obtain ⟨⟨p, blocktype, rfl⟩, -⟩ := h
      split_ifs
      · exact (flags_of_besidesUser (besidesUser_pointed p blocktype t)).2
      · rfl
  | client => exact absurd rfl hclient
  | build =>
      have hsame : t'.besidesBuilder.cpeServer = t.besidesBuilder.cpeServer := by rw [h.1.besides]
      exact hsame

/-- **What the packets of the client leave alone.** -/
theorem cpeClient_did {sent : List (Socket × Bytes)} {a : Activity} (h : Did env t t' sent a) (hserver : a ≠ .server) :
    t'.cpeClient = t.cpeClient := by
  cases a with
  | nothing => rw [h.1]
  | command text =>
      rw [h.1]
      exact (flags_of_besidesUser (besidesUser_commanded env text t)).1
  | login =>
      obtain ⟨⟨unused, rfl⟩, -⟩ := h
      rfl
  | server => exact absurd rfl hserver
  | click =>
      obtain ⟨⟨p, blocktype, rfl⟩, -⟩ := h
      split_ifs
      · exact (flags_of_besidesUser (besidesUser_pointed p blocktype t)).1
      · rfl
  | client =>
      have hsame : t'.besidesClient.cpeClient = t.besidesClient.cpeClient := by rw [h.1.besides]
      exact hsame
  | build =>
      have hsame : t'.besidesBuilder.cpeClient = t.besidesBuilder.cpeClient := by rw [h.1.besides]
      exact hsame

/-- What is no entry, no click and no command announces nothing. -/
theorem clientSide_packet {id : UInt8} {i : Bytes} {l : ServerLocals} (hentry : id ≠ 0x11)
    (h : activity env (id :: i) .tunnelServer (.tunnelServer l) = .client) :
    ClientSide t ((tunnelServer env l).run (id :: i) t).state := by
  rw [activity_tunnelServer] at h
  rw [tunnelServer, run_recv_id env Prog.exit (fun id => Server.dispatch env id l)]
  by_cases hchat : id = 0x0d
  · subst hchat
    have hsaid : Server.isCommand env (arrivingText env (0x0d :: i)) = false := by
      cases hc : Server.isCommand env (arrivingText env (0x0d :: i)) with
      | false => rfl
      | true => exact absurd ((if_pos ⟨rfl, hc⟩).symm.trans h) (by simp)
    rw [Server.dispatch_of_mem (Server.own_mem (e := (0x0d, Server.chatMessage env)) (by repeat constructor)),
      run_bind_pure, Server.chatMessage_eq]
    simp only [run_recvVarW_bind]
    exact (Server.listens_said env made_message hsaid).side.run clientSide_refl ClientSide.trans _ t
  · rw [if_neg (fun hcommand => hchat hcommand.1)] at h
    have hclick : id ≠ 0x05 := fun h5 => absurd ((if_pos h5).symm.trans h) (by simp)
    exact (Server.sides_dispatch env passes_cons ⟨hclick, hchat, hentry⟩ l).run clientSide_refl ClientSide.trans i t

/-- A packet of the client. An entry is complete. -/
theorem cpeServer_packet {p : Packet} (hlen : p.1 = 0x11 → p.2.length = 68) (l : ServerLocals) :
    ((tunnelServer env l).run (p.1 :: p.2) t).state.cpeServer =
      announcing env .tunnelServer t.cpeServer (.tunnelServer, p.1 :: p.2) := by
  obtain ⟨id, payload⟩ := p
  by_cases hentry : id = 0x11
  · subst hentry
    obtain ⟨t', out, hrun, hflags, -⟩ := hearsEntry_tunnelServer env l payload t [] (hlen rfl)
    rw [List.append_nil] at hrun
    rw [hrun]
    exact hflags
  · have hnone : announcing env .tunnelServer t.cpeServer (.tunnelServer, id :: payload) = t.cpeServer :=
      announcing_of_none ((entryFor_cons _ id payload).trans (if_neg hentry))
    rw [hnone]
    by_cases hactivity : activity env (id :: payload) .tunnelServer (.tunnelServer l) = .client
    · exact (clientSide_packet hentry hactivity).2
    · exact cpeServer_did (did_tunnelServer l) hactivity

/-- A packet of the server. -/
theorem cpeClient_packet {p : Packet} (hp : FromServer t.modes p) (l : McLocals) :
    ((mcConnect env l).run (p.1 :: p.2) t).state.cpeClient =
      announcing env .mcConnect t.cpeClient (.mcConnect, p.1 :: p.2) := by
  obtain ⟨id, payload⟩ := p
  by_cases hentry : id = 0x11
  · subst hentry
    have h68 : payload.length = 68 := by simpa [FromServer, serverPackets] using hp
    obtain ⟨t', out, hrun, hflags, -⟩ := hearsEntry_mcConnect env l payload t [] h68
    rw [List.append_nil] at hrun
    rw [hrun]
    exact hflags
  · have hnone : announcing env .mcConnect t.cpeClient (.mcConnect, id :: payload) = t.cpeClient :=
      announcing_of_none ((entryFor_cons _ id payload).trans (if_neg hentry))
    have hquiet : Client.Serves (fun _ _ => True) (Client.dispatch env id l) :=
      Client.serves_dispatch env (fun _ _ _ => trivial) hentry (fun _ => trivial)
        (fun _ i => (Client.made_follow i).mono (fun _ _ h => h) (fun _ _ _ => trivial)) l
    rw [hnone, mcConnect, run_recv_id env Client.disconnected (fun id => Client.dispatch env id l)]
    exact (hquiet.run serverSide_refl ServerSide.trans payload t).2

end Packets

/-! ## The run -/

section Turn

variable {env : Env} {c : Turns ThreadId Tunnel Socket Locals} {i : ThreadId} {input : Bytes}

theorem cpeServer_turn (hc : Owned c) (hok : ClientPackets c i input) (hgoes : c.ended = false) :
    ((tunnel env).turn c i input).state.cpeServer = announcing env .tunnelServer c.state.cpeServer (i, input) := by
  by_cases hi : i = .tunnelServer
  · subst hi
    obtain ⟨p, hp, rfl, -⟩ := hok rfl
    obtain ⟨l, hl⟩ := hc.tunnelServer
    rw [(turn_tunnelServer hgoes hl (p.1 :: p.2)).1]
    have hall : ∀ e ∈ clientPackets, e.1 = 0x11 → e.2 = 68 := by decide
    exact cpeServer_packet (fun h11 => hall _ hp h11) l
  · rw [announcing_of_none (entryFor_of_ne hi input)]
    rcases turn_did env c i input with hsame | ⟨sent, -, hdid⟩
    · rw [hsame]
    · exact cpeServer_did hdid fun h => hi (activity_client h)

theorem cpeClient_turn (hok : ServerPackets c i input) (hgoes : c.ended = false) :
    ((tunnel env).turn c i input).state.cpeClient = announcing env .mcConnect c.state.cpeClient (i, input) := by
  have hquiet : activity env input i (c.locals i) ≠ .server → entryFor .mcConnect (i, input) = none →
      ((tunnel env).turn c i input).state.cpeClient = announcing env .mcConnect c.state.cpeClient (i, input) := by
    intro hserver hnone
    rw [announcing_of_none hnone]
    rcases turn_did env c i input with hsame | ⟨sent, -, hdid⟩
    · rw [hsame]
    · exact cpeClient_did hdid hserver
  by_cases hi : i = .mcConnect
  · subst hi
    obtain ⟨hlogged, ⟨hl, rfl⟩ | ⟨⟨l, hl⟩, p, hp, rfl⟩⟩ := hok rfl
    · exact hquiet (by rw [hl]; simp [activity]) rfl
    · rw [(turn_mcConnect hgoes hlogged hl (p.1 :: p.2)).1]
      exact cpeClient_packet hp l
  · exact hquiet (fun h => hi (activity_server h)) (entryFor_of_ne hi input)

end Turn

/-- **The extensions after a run.** In every run of the four threads in which the two dispatch loops get whole packets,
    and which has not come to an end: the flags of each side are what its announcements make of them, in their order.
    Which thread had which turn makes no difference, nor does anything else that happens. -/
theorem negotiated_runs (env : Env) (t : Tunnel) {sched : List (ThreadId × Bytes)}
    (h : (tunnel env).Always (fun c i input => ClientPackets c i input ∧ ServerPackets c i input) (beginning t) sched)
    (hgoes : ((tunnel env).turns (beginning t) sched).ended = false) :
    ((tunnel env).turns (beginning t) sched).state.cpeClient =
        (announcements .mcConnect sched).foldl (fun cpe name => Client.announce env name cpe) t.cpeClient ∧
      ((tunnel env).turns (beginning t) sched).state.cpeServer =
        (announcements .tunnelServer sched).foldl (fun cpe name => Client.announce env name cpe) t.cpeServer := by
  have hall := Always.and h (always_running hgoes)
  have hstep : ∀ (c : Turns ThreadId Tunnel Socket Locals) i input, Owned c →
      (ClientPackets c i input ∧ ServerPackets c i input) ∧ c.ended = false → Owned ((tunnel env).turn c i input) :=
    fun c i input hc _ => owned_turn i input hc
  have hfold : ∀ i (cpe : CPE), (announcements i sched).foldl (fun cpe name => Client.announce env name cpe) cpe =
      sched.foldl (announcing env i) cpe := by
    intro i cpe
    unfold announcements
    rw [List.foldl_filterMap]
    refine congrArg (fun f => sched.foldl f cpe) (funext fun cpe => funext fun e => ?_)
    unfold announcing
    cases entryFor i e with
    | none => rfl
    | some name => rfl
  rw [hfold, hfold]
  constructor
  · exact turns_fold (fun c => c.state.cpeClient) (announcing env .mcConnect) hstep
      (fun c i input _ hok => cpeClient_turn hok.1.2 hok.2) (owned_beginning t) hall
  · exact turns_fold (fun c => c.state.cpeServer) (announcing env .tunnelServer) hstep
      (fun c i input hc hok => cpeServer_turn hc hok.1.1 hok.2) (owned_beginning t) hall

/-- The entry of an extension, in version 1. -/
def entryOf (name : Bytes) : Bytes := padded name ++ [0, 0, 0, 1]

/-- The two logins, an entry of each side, and another one of the server. -/
def twoEntries : List (ThreadId × Bytes) :=
  [(.tunnelServer, 0x00 :: List.replicate 130 32), (.mcConnect, []),
    (.mcConnect, 0x11 :: entryOf (ascii "ExtEntityPositions")), (.tunnelServer, 0x11 :: entryOf (ascii "FastMap")),
    (.mcConnect, 0x11 :: entryOf (ascii "BlockDefinitions"))]

/-- The server has two extensions, and the client another one. -/
theorem negotiated_runs_two :
    ((tunnel {}).turns (beginning {}) twoEntries).state.cpeClient =
        (announcements .mcConnect twoEntries).foldl (fun cpe name => Client.announce {} name cpe) {} ∧
      ((tunnel {}).turns (beginning {}) twoEntries).state.cpeServer =
        (announcements .tunnelServer twoEntries).foldl (fun cpe name => Client.announce {} name cpe) {} := by
  refine negotiated_runs {} {} ⟨⟨?_, ?_⟩, ⟨?_, ?_⟩, ⟨?_, ?_⟩, ⟨?_, ?_⟩, ⟨?_, ?_⟩, trivial⟩ rfl
  · exact fun _ => ⟨(0x00, List.replicate 130 32), by simp [FromClient, clientPackets], rfl, fun _ => rfl⟩
  · exact fun h => absurd h (by decide)
  · exact fun h => absurd h (by decide)
  · exact fun _ => ⟨rfl, Or.inl ⟨rfl, rfl⟩⟩
  · exact fun h => absurd h (by decide)
  · exact fun _ => ⟨rfl, Or.inr ⟨⟨{}, rfl⟩, (0x11, entryOf (ascii "ExtEntityPositions")), by decide +kernel, rfl⟩⟩
  · exact fun _ => ⟨(0x11, entryOf (ascii "FastMap")), by decide +kernel, rfl, fun h => absurd h (by decide)⟩
  · exact fun h => absurd h (by decide)
  · exact fun h => absurd h (by decide)
  · exact fun _ => ⟨rfl, Or.inr ⟨⟨{}, rfl⟩, (0x11, entryOf (ascii "BlockDefinitions")), by decide +kernel, rfl⟩⟩

end LavaTunnel
