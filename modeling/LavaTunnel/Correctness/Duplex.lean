import LavaTunnel.Correctness.ClientRelay
import LavaTunnel.Correctness.Negotiation
import LavaTunnel.Correctness.ServerRelay

/-!
# `LavaTunnel.Correctness.Duplex` — a tunnel that nobody asks for anything

While no toggle is on, no player is followed and nothing is to be built, the four threads are a wire in both
directions: each side gets the packets of the other one, and what `mcConnect` changes in them. How the turns of the
threads are interleaved makes no difference to either stream.
-/

namespace LavaTunnel

open Wire Wire.Prog

/-! ## Nothing is asked for -/

/-- The client has announced none of the extensions that give packets another form. -/
def Unextended (cpe : CPE) : Prop := cpe.fastMap = false ∧ cpe.extEntityPos = false ∧ cpe.extBlocks = false

/-- An entry for another extension. -/
theorem Unextended.announce {env : Env} {name : Bytes} {cpe : CPE} (h : Unextended cpe)
    (hname : Unextended (Client.announce env name {})) : Unextended (Client.announce env name cpe) := by
  obtain ⟨hfast, hpos, hblocks⟩ := h
  obtain ⟨hfast', hpos', hblocks'⟩ := hname
  simp only [Client.announce, Bool.false_or] at hfast' hpos' hblocks'
  refine ⟨?_, ?_, ?_⟩
  · simp only [Client.announce, hfast, hfast', Bool.false_or]
  · simp only [Client.announce, hpos, hpos', Bool.false_or]
  · simp only [Client.announce, hblocks, hblocks', Bool.false_or]

/-- A state in which nothing is asked for. -/
structure Transparent (t : Tunnel) : Prop where
  logged : t.loggedIn = true
  off : Off t
  hax : t.hax = 0
  modes : ∀ i, (t.player i).mode ≠ 1 ∧ (t.player i).mode ≠ 2
  unextended : Unextended t.cpeServer
  paste : t.paste.start = false
  copy : t.copy.start = false
  cuboid : t.cuboid.start = false

section Transparent

variable {t t' : Tunnel} (ht : Transparent t)
include ht

theorem Transparent.plain : Plain t := by
  obtain ⟨hfast, hpos, hblocks⟩ := ht.unextended
  refine ⟨ht.hax, ht.modes, ?_, ?_, ?_⟩
  · exact (congrArg (t.cpeClient.fastMap && ·) hfast).trans (Bool.and_false _)
  · exact (congrArg (t.cpeClient.extEntityPos && ·) hpos).trans (Bool.and_false _)
  · exact (congrArg (t.cpeClient.extBlocks && ·) hblocks).trans (Bool.and_false _)

/-- A packet of the server keeps it so. -/
theorem Transparent.server (h : ServerTurn t t') : Transparent t' := by
  have hview : ∀ {α : Type} (view : Tunnel → α), view t'.besidesServer = view t.besidesServer :=
    fun view => congrArg view h.1
  refine ⟨(hview (·.loggedIn)).trans ht.logged, ⟨?_, ?_, ?_, ?_⟩, (hview (·.hax)).trans ht.hax, fun i => ?_, ?_, ?_,
    ?_, ?_⟩
  · exact (hview (·.zPlace)).trans ht.off.zPlace
  · exact (hview (·.paint)).trans ht.off.paint
  · exact (hview (·.hide)).trans ht.off.hide
  · exact (hview (·.gimped)).trans ht.off.gimped
  · rcases h.2 i with hsame | hnone
    · rw [hsame]
      exact ht.modes i
    · rw [hnone]
      decide
  · have hcpe : t'.cpeServer = t.cpeServer := hview (·.cpeServer)
    rw [hcpe]
    exact ht.unextended
  · exact (hview (·.paste.start)).trans ht.paste
  · exact (hview (·.copy.start)).trans ht.copy
  · exact (hview (·.cuboid.start)).trans ht.cuboid

/-- A packet of the client keeps it so, unless it announces one of the extensions. -/
theorem Transparent.client (h : ClientTurn t t') (hcpe : Unextended t'.cpeServer) : Transparent t' := by
  have hview : ∀ {α : Type} (view : Tunnel → α), view t'.besidesClient = view t.besidesClient :=
    fun view => congrArg view h.besides
  refine ⟨h.loggedIn ht.logged, ⟨?_, ?_, ?_, ?_⟩, (hview (·.hax)).trans ht.hax, fun i => ?_, hcpe, ?_, ?_, ?_⟩
  · exact (hview (·.zPlace)).trans ht.off.zPlace
  · exact (hview (·.paint)).trans ht.off.paint
  · exact (hview (·.hide)).trans ht.off.hide
  · exact (hview (·.gimped)).trans ht.off.gimped
  · have hplayer : t'.player = t.player := hview (·.player)
    rw [hplayer]
    exact ht.modes i
  · exact (hview (·.paste.start)).trans ht.paste
  · exact (hview (·.copy.start)).trans ht.copy
  · cases hstart : t'.cuboid.start with
    | false => rfl
    | true => exact absurd (ht.cuboid.symm.trans (h.cuboid hstart)) Bool.false_ne_true

end Transparent

/-! ## One packet -/

/-- It is for the server. -/
def ToServer (s : Socket) (_bs : Bytes) : Prop := s = tunnelSock

/-- Nothing goes to a socket that all packets are not for. -/
theorem stream_eq_nil {s dest : Socket} {sent : List (Socket × Bytes)} (h : ∀ e ∈ sent, e.1 = dest) (hne : dest ≠ s) :
    stream s sent = [] := by
  refine List.flatMap_eq_nil_iff.mpr fun e he => if_neg fun hto => hne ((h e he).symm.trans hto)

/-- Between the operations. -/
def Pc.idle : Pc → Bool
  | .paste => true
  | .copy => true
  | .cuboid => true
  | _ => false

section Packets

variable {env : Env} {t : Tunnel}

/-- A packet of the client that is neither a command nor a click that is kept goes to the server only. -/
theorem toServer_tunnelServer {input : Bytes} {l : ServerLocals} (hz : t.zPlace = false)
    (hcommand : byte input = 0x0d → Server.isCommand env (arrivingText env input) = false) :
    ∀ e ∈ (tunnelServer env l).sent input t, ToServer e.1 e.2 := by
  cases input with
  | nil =>
      rw [tunnelServer, sent_recvW_bind]
      exact (Framed.exit : Server.Listens ToServer (Prog.exit : Code ServerLocals)).sent _ t
  | cons id i =>
      rw [tunnelServer, sent_recv_id env Prog.exit (fun id => Server.dispatch env id l)]
      by_cases hd : id = 0x0d
      · subst hd
        rw [Server.dispatch_of_mem (Server.own_mem (e := (0x0d, Server.chatMessage env)) (by repeat constructor)),
          sent_bind_pure, Server.chatMessage_eq]
        simp only [sent_recvVarW_bind]
        exact (Server.listens_said env (fun _ => rfl) (hcommand rfl)).sent _ t
      · by_cases h5 : id = 0x05
        · subst h5
          rw [Server.dispatch_of_mem (Server.own_mem (e := (0x05, Server.setBlockClick env)) (by repeat constructor)),
            sent_bind_pure]
          unfold Server.setBlockClick
          simp only [sent_recvVarW_bind]
          rw [sent_getState_bind, if_neg (ne_true_of_eq_false hz)]
          intro e he
          rw [List.mem_singleton.mp he]
          rfl
        · exact (Server.turns_dispatch env (fun _ _ _ => rfl) ⟨h5, hd⟩ l).sent i t

/-- A message that is no command. -/
theorem FromUser.said {p : Packet} (hp : FromUser env p) (h0d : p.1 = 0x0d) :
    Server.isCommand env (arrivingText env (p.1 :: p.2)) = false := by
  have h65 : p.2.length = 65 := by
    have hall : ∀ e ∈ (0x00, 130) :: userPackets, e.1 = 0x0d → e.2 = 65 := by decide
    exact hall _ hp.complete h0d
  have htext : arrivingText env (p.1 :: p.2) = field p.2 1 64 := by
    show (env.var 2).fill 64 (field p.2 1 64) = field p.2 1 64
    exact fill_field _ (by omega)
  rw [htext]
  exact hp.noCommand h0d

/-- An entry is complete. -/
theorem FromUser.entry {p : Packet} (hp : FromUser env p) (h11 : p.1 = 0x11) : p.2.length = 68 := by
  have hall : ∀ e ∈ (0x00, 130) :: userPackets, e.1 = 0x11 → e.2 = 68 := by decide
  exact hall _ hp.complete h11

/-- **A packet of the client.** -/
theorem duplex_user {p : Packet} (ht : Transparent t) (hp : FromUser env p) (hfaithful : Faithful env p)
    (hentry : p.1 = 0x11 → Unextended (Client.announce env (field p.2 0 64) {})) :
    ((tunnelServer env ⟨true⟩).run (p.1 :: p.2) t).result = some ⟨true⟩ ∧
      Transparent ((tunnelServer env ⟨true⟩).run (p.1 :: p.2) t).state ∧
        stream tunnelSock ((tunnelServer env ⟨true⟩).sent (p.1 :: p.2) t) = p.1 :: p.2 ∧
          stream serverSock ((tunnelServer env ⟨true⟩).sent (p.1 :: p.2) t) = [] := by
  obtain ⟨l', t', out, hrun, hout⟩ := (roundExact_iff_faithful hp (l := ⟨true⟩) rfl ht.off []).mpr hfaithful
  have hlocals : l' = ⟨true⟩ := locals_of_round rfl hrun
  rw [List.append_nil] at hrun
  refine ⟨?_, ?_, ?_, ?_⟩
  · rw [hrun, hlocals]
  · have hdid : Did env t ((tunnelServer env ⟨true⟩).run (p.1 :: p.2) t).state
        ((tunnelServer env ⟨true⟩).sent (p.1 :: p.2) t)
        (activity env (p.1 :: p.2) .tunnelServer (.tunnelServer ⟨true⟩)) := did_tunnelServer _
    have hcpe : Unextended ((tunnelServer env ⟨true⟩).run (p.1 :: p.2) t).state.cpeServer := by
      rw [cpeServer_packet hp.entry]
      unfold announcing
      rw [entryFor_cons]
      by_cases h11 : p.1 = 0x11
      · rw [if_pos h11]
        exact ht.unextended.announce (hentry h11)
      · rw [if_neg h11]
        exact ht.unextended
    rw [activity_tunnelServer, if_neg] at hdid
    · by_cases h5 : byte (p.1 :: p.2) = 0x05
      · rw [if_pos h5] at hdid
        obtain ⟨⟨point, blocktype, hstate⟩, -⟩ := hdid
        rw [hstate, if_neg (ne_true_of_eq_false ht.off.zPlace)]
        exact ht
      · rw [if_neg h5] at hdid
        exact ht.client hdid.1 hcpe
    · exact fun hcommand => absurd ((hp.said hcommand.1).symm.trans hcommand.2) Bool.false_ne_true
  · rw [← stream_sent, hrun]
    exact hout.trans (if_neg fun h0 => hfaithful.id (by simp [h0]))
  · exact stream_eq_nil (toServer_tunnelServer ht.off.zPlace fun h0d => hp.said h0d) (by decide)

/-- **A packet of the server.** -/
theorem duplex_server (hz : env.zlib.EndDocumented) {p : Packet} (ht : Transparent t) (hp : Ordinary p)
    (hkick : p.1 ≠ 0x0e) (l : McLocals) : ∃ fucker,
    ((mcConnect env l).run (p.1 :: p.2) t).result = some ⟨l.joined || p.1 == 0x04, fucker⟩ ∧
      Transparent ((mcConnect env l).run (p.1 :: p.2) t).state ∧
        stream serverSock ((mcConnect env l).sent (p.1 :: p.2) t) = forwarded l.joined p ∧
          stream tunnelSock ((mcConnect env l).sent (p.1 :: p.2) t) = [] := by
  obtain ⟨r, t', out, htakes, hout, -, hgoes⟩ := forwards hz hp ht.plain l
  obtain ⟨l', rfl, hjoined⟩ := hgoes hkick
  have hrun := takes_mcConnect htakes []
  rw [List.append_nil] at hrun
  refine ⟨l'.fucker, ?_, ?_, ?_, ?_⟩
  · rw [hrun, ← hjoined]
  · exact ht.server ((turns_mcConnect env l).run serverTurn_refl ServerTurn.trans (p.1 :: p.2) t)
  · rw [← stream_sent, hrun]
    exact hout
  · refine stream_eq_nil (toClient_mcConnect fun hwalks => ?_) (by decide)
    exact (ht.modes _).2 hwalks.2

/-- **A line** that is no command. -/
theorem duplex_line (env : Env) {text : Bytes} (hline : byte (text.take 64) ≠ 39) (t : Tunnel) :
    ((console env).run text t).result = some () ∧ ((console env).run text t).state = t ∧
      (console env).sent text t = [] := by
  show ((consoleLine env (text.take 64)).run (text.drop 64) t).result = _ ∧
    ((consoleLine env (text.take 64)).run (text.drop 64) t).state = _ ∧
      (consoleLine env (text.take 64)).sent (text.drop 64) t = _
  unfold consoleLine
  rw [onlyIf_neg hline]
  exact ⟨rfl, rfl, rfl⟩

/-- **The builder** has nothing to do. -/
theorem duplex_builder (env : Env) {pc : Pc} (ht : Transparent t) (hpc : pc.idle = true) (input : Bytes) : ∃ pc',
    pc'.idle = true ∧ ((builder env pc).run input t).result = some pc' ∧ ((builder env pc).run input t).state = t ∧
      (builder env pc).sent input t = [] := by
  have hidle : ∀ {pc'}, pc'.idle = true → builderIteration env t pc = { next := pc' } →
      ((builder env pc).run input t).result = some pc' ∧ ((builder env pc).run input t).state = t ∧
        (builder env pc).sent input t = [] := by
    intro pc' hpc' hit
    rw [builder_eq, run_getState_bind, sent_getState_bind, hit]
    cases pc' with
    | paste => exact ⟨rfl, rfl, rfl⟩
    | copy => exact ⟨rfl, rfl, rfl⟩
    | cuboid => exact ⟨rfl, rfl, rfl⟩
    | _ => exact absurd hpc' Bool.false_ne_true
  cases pc with
  | paste => exact ⟨.copy, rfl, hidle rfl (iteration_paste_idle env ht.paste)⟩
  | copy => exact ⟨.cuboid, rfl, hidle rfl (iteration_copy_idle env ht.copy)⟩
  | cuboid => exact ⟨.paste, rfl, hidle rfl (iteration_cuboid_idle env ht.cuboid)⟩
  | _ => exact absurd hpc Bool.false_ne_true

end Packets

/-! ## A run -/

/-- A turn in which nothing is asked for: a line that is no command, a packet to pass on in either direction, and a
    look of the builder at what is to be built. -/
inductive QuietTurn : ThreadId × Env × Bytes → Prop where
  | line (env : Env) (text : Bytes) (hline : byte (text.take 64) ≠ 39) : QuietTurn (.main, env, text)
  | user (env : Env) (p : Packet) (hp : FromUser env p) (hfaithful : Faithful env p)
      (hentry : p.1 = 0x11 → Unextended (Client.announce env (field p.2 0 64) {})) :
      QuietTurn (.tunnelServer, env, p.1 :: p.2)
  | server (env : Env) (p : Packet) (hp : Ordinary p) (hkick : p.1 ≠ 0x0e) : QuietTurn (.mcConnect, env, p.1 :: p.2)
  | build (env : Env) (input : Bytes) : QuietTurn (.builder, env, input)

/-- The packet in a turn of a thread. -/
def packetIn (i : ThreadId) : ThreadId × Env × Bytes → Option Packet
  | (j, _, id :: payload) => if j = i then some (id, payload) else none
  | _ => none

/-- The packets that a thread gets in a run. -/
def packetsIn (i : ThreadId) (sched : List (ThreadId × Env × Bytes)) : List Packet := sched.filterMap (packetIn i)

theorem packetsIn_cons_self (i : ThreadId) (env : Env) (p : Packet) (sched : List (ThreadId × Env × Bytes)) :
    packetsIn i ((i, env, p.1 :: p.2) :: sched) = p :: packetsIn i sched :=
  List.filterMap_cons_some (if_pos rfl)

theorem packetsIn_cons_ne {i j : ThreadId} (h : j ≠ i) (env : Env) (input : Bytes)
    (sched : List (ThreadId × Env × Bytes)) : packetsIn i ((j, env, input) :: sched) = packetsIn i sched := by
  refine List.filterMap_cons_none ?_
  cases input with
  | nil => rfl
  | cons id payload => exact if_neg h

/-- Where a thread stands when nothing is asked for; `joined` says that the client has got the greeting. -/
def Suits (joined : Bool) : Locals → Prop
  | .main => True
  | .tunnelServer l => l = ⟨true⟩
  | .connecting => False
  | .mcConnect l => l.joined = joined
  | .builder pc => pc.idle = true

theorem Suits.of_ne {joined joined' : Bool} {l : Locals} (h : Suits joined l) (hne : l.owner ≠ .mcConnect) :
    Suits joined' l := by
  cases l with
  | main => trivial
  | tunnelServer l => exact h
  | connecting => exact absurd rfl hne
  | mcConnect l => exact absurd rfl hne
  | builder pc => exact h

/-- Both sides have logged in, and nothing is asked for. -/
structure Playing (joined : Bool) (c : Turns ThreadId Tunnel Socket Locals) : Prop where
  goes : c.ended = false
  state : Transparent c.state
  owned : Owned c
  fits : ∀ i, Suits joined (c.locals i)

/-- What a turn adds to the two streams, and where the packets of a run that begins with it are. -/
structure Adds (joined : Bool) (c : Turns ThreadId Tunnel Socket Locals) (e : ThreadId × Env × Bytes)
    (joined' : Bool) (c' : Turns ThreadId Tunnel Socket Locals) (up down : Bytes) : Prop where
  playing : Playing joined' c'
  toServer : stream tunnelSock c'.sent = stream tunnelSock c.sent ++ up
  toClient : stream serverSock c'.sent = stream serverSock c.sent ++ down
  user : ∀ sched, encode (packetsIn .tunnelServer (e :: sched)) = up ++ encode (packetsIn .tunnelServer sched)
  server : ∀ sched, forwardedAll joined (packetsIn .mcConnect (e :: sched)) =
    down ++ forwardedAll joined' (packetsIn .mcConnect sched)

section Turn

variable {env : Env} {joined joined' : Bool} {c : Turns ThreadId Tunnel Socket Locals}

theorem Playing.started (hc : Playing joined c) (i : ThreadId) : (tunnel env).started i c.state = true := by
  cases i with
  | main => rfl
  | tunnelServer => rfl
  | mcConnect => exact hc.state.logged
  | builder => exact hc.state.logged

/-- A turn whose round runs `code`, goes on, and leaves its thread where nothing is asked for. -/
theorem Playing.adds (hc : Playing joined c) {α : Type} {code : Code α} {f : α → Locals} {i : ThreadId}
    {input up down : Bytes} {a : α} (hround : round env i (c.locals i) = (do let a ← code; pure (f a)))
    (hresult : (code.run input c.state).result = some a) (hfits : Suits joined' (f a))
    (hothers : joined' = joined ∨ i = .mcConnect) (hstate : Transparent (code.run input c.state).state)
    (hup : stream tunnelSock (code.sent input c.state) = up)
    (hdown : stream serverSock (code.sent input c.state) = down)
    (huser : ∀ sched, encode (packetsIn .tunnelServer ((i, env, input) :: sched)) =
      up ++ encode (packetsIn .tunnelServer sched))
    (hserver : ∀ sched, forwardedAll joined (packetsIn .mcConnect ((i, env, input) :: sched)) =
      down ++ forwardedAll joined' (packetsIn .mcConnect sched)) :
    Adds joined c (i, env, input) joined' ((tunnel env).turn c i input) up down := by
  have hgoes : ((round env i (c.locals i)).run input c.state).result = some (f a) := by
    rw [hround, run_bind_pure, hresult]
    rfl
  have howned : Owned ((tunnel env).turn c i input) := owned_turn i input hc.owned
  have hturn : (tunnel env).turn c i input = ⟨((round env i (c.locals i)).run input c.state).state,
      Function.update c.locals i (f a), c.sent ++ (round env i (c.locals i)).sent input c.state, false⟩ :=
    turn_some ⟨hc.goes, hc.started i⟩ hgoes
  rw [hround, run_bind_pure, sent_bind_pure] at hturn
  rw [hturn] at howned ⊢
  refine ⟨⟨rfl, hstate, howned, fun j => ?_⟩, ?_, ?_, huser, hserver⟩
  · show Suits joined' (Function.update c.locals i (f a) j)
    by_cases hj : j = i
    · subst hj
      rw [Function.update_self]
      exact hfits
    · rw [Function.update_of_ne hj]
      rcases hothers with rfl | rfl
      · exact hc.fits j
      · exact (hc.fits j).of_ne (by rw [hc.owned j]; exact hj)
  · exact (stream_append _ _ _).trans (congrArg (_ ++ ·) hup)
  · exact (stream_append _ _ _).trans (congrArg (_ ++ ·) hdown)

/-- **One turn.** -/
theorem Playing.turn (hc : Playing joined c) {e : ThreadId × Env × Bytes} (hz : e.2.1.zlib.EndDocumented)
    (he : QuietTurn e) : ∃ joined' up down, Adds joined c e joined' ((tunnel e.2.1).turn c e.1 e.2.2) up down := by
  -- a turn with no packet for a thread adds none for it
  have hnone : ∀ {i j : ThreadId}, j ≠ i → ∀ env input sched,
      packetsIn i ((j, env, input) :: sched) = packetsIn i sched :=
    fun hne env input sched => packetsIn_cons_ne hne env input sched
  cases he with
  | line env text hline =>
      obtain ⟨hresult, hstate, hsent⟩ := duplex_line env hline c.state
      have hround : round env .main (c.locals .main) = (do console env; pure .main) := by
        rw [hc.owned.main]
        rfl
      have hquiet : ∀ s, stream s ((console env).sent text c.state) = [] := fun s => by rw [hsent]; rfl
      exact ⟨joined, [], [], hc.adds hround hresult trivial (Or.inl rfl) (hstate.symm ▸ hc.state) (hquiet _) (hquiet _)
        (fun sched => congrArg encode (hnone (by decide) env text sched))
        (fun sched => congrArg (forwardedAll joined) (hnone (by decide) env text sched))⟩
  | user env p hp hfaithful hentry =>
      obtain ⟨hresult, hstate, hup, hdown⟩ := duplex_user hc.state hp hfaithful hentry
      obtain ⟨l, hl⟩ := hc.owned.tunnelServer
      have hfits := hc.fits .tunnelServer
      rw [hl] at hfits
      have hround : round env .tunnelServer (c.locals .tunnelServer) =
          (do let l' ← tunnelServer env ⟨true⟩; pure (.tunnelServer l')) := by
        rw [hl, show l = ⟨true⟩ from hfits]
        rfl
      refine ⟨joined, p.1 :: p.2, [], hc.adds hround hresult rfl (Or.inl rfl) hstate hup hdown (fun sched => ?_)
        (fun sched => congrArg (forwardedAll joined) (hnone (by decide) env (p.1 :: p.2) sched))⟩
      rw [packetsIn_cons_self]
      rfl
  | server env p hp hkick =>
      obtain ⟨l, hl, hjoined⟩ : ∃ l, c.locals .mcConnect = .mcConnect l ∧ l.joined = joined := by
        have howner := hc.owned .mcConnect
        have hfits := hc.fits .mcConnect
        cases hl : c.locals .mcConnect with
        | mcConnect l => exact ⟨l, rfl, by rw [hl] at hfits; exact hfits⟩
        | connecting =>
            rw [hl] at hfits
            exact hfits.elim
        | _ => exact absurd (hl ▸ howner) (by simp [Locals.owner])
      obtain ⟨fucker, hresult, hstate, hdown, hup⟩ := duplex_server hz hc.state hp hkick l
      have hround : round env .mcConnect (c.locals .mcConnect) =
          (do let l' ← mcConnect env l; pure (.mcConnect l')) := by
        rw [hl]
        rfl
      refine ⟨l.joined || p.1 == 0x04, [], forwarded l.joined p, hc.adds hround hresult rfl (Or.inr rfl) hstate hup
        hdown (fun sched => congrArg encode (hnone (by decide) env (p.1 :: p.2) sched)) (fun sched => ?_)⟩
      rw [packetsIn_cons_self, ← hjoined]
      rfl
  | build env input =>
      obtain ⟨pc, hl⟩ := hc.owned.builder
      have hfits := hc.fits .builder
      rw [hl] at hfits
      obtain ⟨pc', hpc', hresult, hstate, hsent⟩ := duplex_builder env hc.state hfits input
      have hround : round env .builder (c.locals .builder) = (do let pc' ← builder env pc; pure (.builder pc')) := by
        rw [hl]
        rfl
      have hquiet : ∀ s, stream s ((builder env pc).sent input c.state) = [] := fun s => by rw [hsent]; rfl
      exact ⟨joined, [], [], hc.adds hround hresult hpc' (Or.inl rfl) (hstate.symm ▸ hc.state) (hquiet _) (hquiet _)
        (fun sched => congrArg encode (hnone (by decide) env input sched))
        (fun sched => congrArg (forwardedAll joined) (hnone (by decide) env input sched))⟩

end Turn

/-- Both sides have logged in, and the client waits for the greeting. -/
def playing : Turns ThreadId Tunnel Socket Locals where
  state := { loggedIn := true }
  locals
    | .main => .main
    | .tunnelServer => .tunnelServer ⟨true⟩
    | .mcConnect => .mcConnect {}
    | .builder => .builder .paste

theorem playing_playing : Playing false playing := by
  have hmode : (0 : Int) ≠ 1 ∧ (0 : Int) ≠ 2 := by decide
  refine ⟨rfl, ⟨rfl, ⟨rfl, rfl, rfl, rfl⟩, rfl, fun _ => hmode, ⟨rfl, rfl, rfl⟩, rfl, rfl, rfl⟩, fun i => ?_,
    fun i => ?_⟩
  · cases i with
    | _ => rfl
  · cases i with
    | main => trivial
    | _ => rfl

/-- A ping, a line of the console, two packets of the client, the second a ping whose data are what is in the variable
    that they are taken from, and a look of the builder. -/
def quietTurns : List (ThreadId × Env × Bytes) :=
  [(.mcConnect, {}, [0x01]), (.main, {}, ascii "hello"), (.tunnelServer, {}, [0x12, 0, 160]),
    (.tunnelServer, { junk := fun _ _ => 7 }, [43, 1, 7, 7]), (.builder, {}, [])]

end LavaTunnel
