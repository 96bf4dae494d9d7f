import LavaTunnel.Correctness.Activity

/-!
# `LavaTunnel.Correctness.Substreams` — the packets that pass whatever else happens

The tunnel makes up blocks, positions and messages, and writes them between the packets it passes on: it answers
commands, places blocks, follows players. What it has no use of its own for passes all the same. Of the packets the
server gets, those that are no login, block, position or message are, at every moment before the end, what
`tunnelServer` makes of the packets of the client, in the order in which they came; and of the packets the client
gets, those of the kinds `mcConnect` only passes on are the packets of the server. The schedule, the commands, the
clicks, and what the other side sends make no difference.
-/

namespace LavaTunnel

open Wire Wire.Prog

/-! ## What a handler sends of a packet -/

section Sent

variable {env : Env} {payload : Bytes} {t : Tunnel}

theorem sent_recvVar_field {α : Type} {offset n : Nat} (h : offset + n ≤ payload.length) (f : Bytes → Code α)
    (t : Tunnel) : (recvVar env n >>= f).sent (payload.drop offset) t =
      (f (field payload offset n)).sent (payload.drop (offset + n)) t := by
  rw [sent_recvVar_bind env, List.drop_drop]
  have hfill : env.fill n ((payload.drop offset).take n) = field payload offset n :=
    fill_of_length (by rw [List.length_take, List.length_drop]; omega)
  rw [hfill]

/-- The fields of a packet, and the packet. -/
theorem cons_fields {id : UInt8} (widths : List Nat) (h : payload.length = widths.sum) :
    id :: (fieldsFrom payload 0 widths).flatten = id :: payload := by
  rw [flatten_fieldsFrom widths (by omega), List.drop_zero]

/-- **A relay** sends the packet. -/
theorem sent_relay (env : Env) (dest : Socket) {r : Relay} (h : payload.length = r.width) (t : Tunnel) :
    (relay env dest r).sent payload t = [(dest, r.id :: payload)] := by
  have hsum : payload.length = 0 + (r.layout.map Field.width).sum := by rw [h, Nat.zero_add, Relay.width]
  have hfields := length_fieldsFrom _ hsum
  have hflat : (fieldsFrom payload 0 (r.layout.map Field.width)).flatten = payload := flatten_fieldsFrom _ hsum
  have hrun := run_recvFields env r.layout hfields [] t
  rw [List.append_nil, hflat] at hrun
  have htame : (recvFields env r.layout).Tame id id fun _ _ => False := by
    rw [← bind_pure' (recvFields env r.layout)]
    exact tame_recvFields env r.layout fun _ _ => Tame.pure _
  unfold relay
  rw [sent_bind_of hrun, sent_eq_nil htame.emits, List.nil_append]
  show [(dest, (r.calls _).flatMap Call.bytes)] = _
  rw [r.bytes_calls (by simpa using congrArg List.length hfields), hflat]

namespace Server

theorem sent_extInfo (h : payload.length = 66) : (extInfo env).sent payload t =
    [(tunnelSock, 0x10 :: (field payload 0 64 ++ bytesOf (htons (host (field payload 64 2) - 1))))] := by
  unfold extInfo
  simp (disch := omega) only [sent_recvVarW_first, sent_recvVarW_field]
  show [(tunnelSock, _)] = _
  simp

theorem sent_extEntry (h : payload.length = 68) : (extEntry env).sent payload t = [(tunnelSock, 0x11 :: payload)] := by
  unfold extEntry
  simp (disch := omega) only [sent_recvVarW_first, sent_recvVarW_field, sent_update_bind]
  rw [← cons_fields [64, 4] h]
  show [(tunnelSock, _)] = _
  simp [fieldsFrom]

theorem sent_textHotKey (h : payload.length = 133) :
    (textHotKey env).sent payload t = [(tunnelSock, 0x15 :: payload.take 132)] := by
  unfold textHotKey
  simp (disch := omega) only [sent_recvVarW_first, sent_recvVarW_field]
  have htake : payload.take 132 = field payload 0 64 ++ (field payload 64 64 ++ field payload 128 4) := by
    rw [show 132 = 64 + (64 + 4) from rfl, List.take_add, List.take_add, List.drop_drop]
    rfl
  rw [htake]
  show [(tunnelSock, _)] = _
  simp

theorem sent_extAddEntity2 (h : payload.length = 137) :
    (extAddEntity2 env).sent payload t = [(tunnelSock, 0x21 :: payload.drop 1)] := by
  have hdrop : (fieldsFrom payload 1 [64, 64, 2, 2, 2, 1, 1]).flatten = payload.drop 1 :=
    flatten_fieldsFrom _ (by rw [h]; rfl)
  unfold extAddEntity2
  rw [sent_recvVar_bind env]
  simp (disch := omega) only [sent_recvVarW_field, sent_recvVar_field]
  rw [← hdrop]
  show [(tunnelSock, _)] = _
  simp [fieldsFrom]

theorem sent_twoWayPing (h : payload.length = 3) :
    (twoWayPing env).sent payload t = [(tunnelSock, 43 :: (field payload 0 1 ++ env.undef 2))] := by
  unfold twoWayPing
  simp (disch := omega) only [sent_recvVarW_first, sent_recvVarW_field]
  rfl

/-- The chat, command or not. -/
theorem made_chatMessage (env : Env) : (chatMessage env).Framed (fun _ _ => True) id Made := by
  rw [chatMessage_eq]
  refine framed_recvVarW (fun _ => trivial) _ fun what => framed_recvVarW (fun _ => trivial) _ fun message => ?_
  cases hc : isCommand env message with
  | false => exact ((listens_said env made_message hc).mono (fun _ _ _ => trivial) (fun _ _ => id)).unblur
  | true =>
      unfold said
      rw [if_pos hc]
      exact Framed.bind (made_commandFunc env _) fun _ => Framed.onlyIf (made_tunnelMsg _)

end Server

end Sent

/-! ## The packets of some kinds -/

/-- A packet of one of the kinds. -/
def ofKinds (ids : List UInt8) (bs : Bytes) : Bool := bs.head?.any (fun id => decide (id ∈ ids))

/-- The packets of these kinds that have been sent to a socket. -/
def substream (dest : Socket) (ids : List UInt8) (sent : List (Socket × Bytes)) : List Bytes :=
  (sentTo dest sent).filter (ofKinds ids)

section Kinds

variable {dest : Socket} {ids : List UInt8} {sent : List (Socket × Bytes)}

theorem substream_append (sent' : List (Socket × Bytes)) :
    substream dest ids (sent ++ sent') = substream dest ids sent ++ substream dest ids sent' := by
  unfold substream
  rw [sentTo_append, List.filter_append]

theorem substream_eq_nil (h : ∀ e ∈ sent, e.1 = dest → ofKinds ids e.2 = false) : substream dest ids sent = [] := by
  unfold substream
  rw [List.filter_eq_nil_iff]
  intro bs hbs hkind
  exact absurd ((h (dest, bs) (mem_sentTo.mp hbs) rfl).symm.trans hkind) (by decide)

/-- Kinds that the tunnel does not make up. -/
theorem ofKinds_made (hids : ∀ id ∈ madeIds dest, id ∉ ids) {bs : Bytes} (h : Made dest bs) :
    ofKinds ids bs = false := by
  obtain ⟨id, hid, hhead⟩ := h
  unfold ofKinds
  rw [hhead]
  exact decide_eq_false (hids id hid)

theorem substream_made (hids : ∀ id ∈ madeIds dest, id ∉ ids) (h : ∀ e ∈ sent, Made e.1 e.2) :
    substream dest ids sent = [] :=
  substream_eq_nil fun e he hto => ofKinds_made hids (hto ▸ h e he)

/-- One packet to the socket. -/
theorem substream_single (id : UInt8) (bs : Bytes) :
    substream dest ids [(dest, id :: bs)] = if id ∈ ids then [id :: bs] else [] := by
  have hto : sentTo dest [(dest, id :: bs)] = [id :: bs] := by
    unfold sentTo
    rw [List.filter_cons_of_pos (by simp)]
    rfl
  unfold substream
  rw [hto]
  by_cases hid : id ∈ ids
  · rw [if_pos hid, List.filter_cons_of_pos (by simpa [ofKinds] using hid)]
    rfl
  · rw [if_neg hid, List.filter_cons_of_neg (by simpa [ofKinds] using hid)]
    rfl

end Kinds

/-! ## The packets of the client -/

/-- The kinds of packets that `tunnelServer` has no use of its own for. -/
def Server.onwardIds : List UInt8 :=
  [0x10, 0x11, 0x12, 0x13, 0x14, 0x15, 0x16, 0x18, 0x19, 0x1A, 0x1B, 0x1C, 0x1D, 0x1E, 0x1F, 0x21, 0x22, 43]

/-- What it makes of them. Four kinds are changed. -/
def Server.onward (env : Env) (p : Packet) : Bytes :=
  if p.1 = 0x10 then 0x10 :: (field p.2 0 64 ++ bytesOf (htons (host (field p.2 64 2) - 1)))
  else if p.1 = 0x15 then 0x15 :: p.2.take 132
  else if p.1 = 0x21 then 0x21 :: p.2.drop 1
  else if p.1 = 43 then 43 :: (field p.2 0 1 ++ env.undef 2)
  else p.1 :: p.2

theorem onwardIds_made : ∀ id ∈ madeIds tunnelSock, id ∉ Server.onwardIds := by
  intro id hid
  simp only [madeIds, List.mem_cons, List.not_mem_nil, or_false] at hid
  rcases hid with rfl | rfl | rfl <;> simp [Server.onwardIds]

/-- **One packet of the client.** -/
theorem substream_packet {env : Env} {p : Packet} (hp : FromClient p) {l : ServerLocals}
    (hlogin : p.1 = 0x00 → l.fucked = false) (t : Tunnel) :
    substream tunnelSock Server.onwardIds ((tunnelServer env l).sent (p.1 :: p.2) t) =
      if p.1 ∈ Server.onwardIds then [Server.onward env p] else [] := by
  obtain ⟨id, payload⟩ := p
  have hround : ∀ {c : Code Unit}, (id, c) ∈ Server.handlers env →
      (tunnelServer env l).sent (id :: payload) t = c.sent payload t := fun hc => sent_tunnelServer hc l payload t
  have hpassed : ∀ {c : Code Unit} {bs : Bytes}, (id, c) ∈ Server.handlers env →
      c.sent payload t = [(tunnelSock, id :: bs)] → Server.onward env (id, payload) = id :: bs →
      substream tunnelSock Server.onwardIds ((tunnelServer env l).sent (id :: payload) t) =
        if id ∈ Server.onwardIds then [Server.onward env (id, payload)] else [] := by
    intro c bs hc hsent honward
    rw [hround hc, hsent, substream_single, honward]
  rcases mem_clientPackets hp with ⟨r, hr, rfl, hwidth⟩ | hspecial
  · have hall : ∀ r ∈ Server.relays, r.id ≠ 0x10 ∧ r.id ≠ 0x15 ∧ r.id ≠ 0x21 ∧ r.id ≠ 43 := by decide
    obtain ⟨h10, h15, h21, h43⟩ := hall r hr
    refine hpassed (Server.relay_mem env hr) (sent_relay env tunnelSock hwidth.symm t) ?_
    unfold Server.onward
    rw [if_neg h10, if_neg h15, if_neg h21, if_neg h43]
  simp only [Server.specials, List.mem_cons, Prod.mk.injEq, List.not_mem_nil, or_false] at hspecial
  -- one case a handler, in the order of `Server.specials`
  rcases hspecial with ⟨rfl, h⟩ | ⟨rfl, h⟩ | ⟨rfl, h⟩ | ⟨rfl, h⟩ | ⟨rfl, h⟩ | ⟨rfl, h⟩ | ⟨rfl, h⟩ | ⟨rfl, h⟩ | ⟨rfl, h⟩
  · -- the login goes to nobody
    have hdispatch : Server.dispatch env 0x00 l = Server.login env := if_pos ⟨rfl, hlogin rfl⟩
    have hsent : (tunnelServer env l).sent (0x00 :: payload) t = (Server.login env).sent payload t := by
      rw [tunnelServer, sent_recv_id env Prog.exit (fun id => Server.dispatch env id l), hdispatch]
    have hnone : (Server.login env).Framed ClientSide Tunnel.heeded (fun _ _ => False) := Server.turns_login env
    rw [hsent, substream_eq_nil fun e he => (hnone.sent payload t e he).elim]
    rfl
  · rw [hround (Server.own_mem (e := (0x05, Server.setBlockClick env)) (by repeat constructor))]
    exact substream_made onwardIds_made ((Server.heeds_setBlockClick env).sent payload t)
  · rw [hround (Server.own_mem (e := (0x08, Server.posUpdate env)) (by repeat constructor))]
    exact substream_made onwardIds_made ((Server.listens_posUpdate env made_position).sent payload t)
  · rw [hround (Server.own_mem (e := (0x0d, Server.chatMessage env)) (by repeat constructor))]
    exact substream_made onwardIds_made ((Server.made_chatMessage env).sent payload t)
  · exact hpassed (Server.own_mem (by repeat constructor)) (Server.sent_extInfo h) rfl
  · exact hpassed (Server.own_mem (by repeat constructor)) (Server.sent_extEntry h) rfl
  · exact hpassed (Server.own_mem (by repeat constructor)) (Server.sent_textHotKey h) rfl
  · exact hpassed (Server.own_mem (by repeat constructor)) (Server.sent_extAddEntity2 h) rfl
  · exact hpassed (Server.own_mem (by repeat constructor)) (Server.sent_twoWayPing h) rfl

/-- What is neither a packet of the client nor a login is made up, towards the server. -/
theorem substream_onward_did {env : Env} {t t' : Tunnel} {sent : List (Socket × Bytes)} {a : Activity}
    (h : Did env t t' sent a) (hclient : a ≠ .client) : substream tunnelSock Server.onwardIds sent = [] := by
  have hbut : (∀ e ∈ sent, MadeBut serverSock e.1 e.2) → substream tunnelSock Server.onwardIds sent = [] :=
    fun hmade => substream_eq_nil fun e he hto => ofKinds_made onwardIds_made (hto ▸ hmade e he (by rw [hto]; decide))
  cases a with
  | nothing =>
      rw [h.2]
      rfl
  | command text => exact substream_made onwardIds_made h.2
  | login =>
      rw [h.2, loginPacket]
      exact (substream_single 0x00 _).trans (if_neg (by decide))
  | server => exact hbut h.2
  | click => exact substream_made onwardIds_made h.2
  | client => exact absurd rfl hclient
  | build => exact substream_made onwardIds_made h.2

/-- `tunnelServer` gets whole packets of the client, one login at most. -/
def ClientPackets (c : Turns ThreadId Tunnel Socket Locals) (i : ThreadId) (input : Bytes) : Prop :=
  i = .tunnelServer → ∃ p, FromClient p ∧ input = p.1 :: p.2 ∧ (p.1 = 0x00 → c.locals .tunnelServer = .tunnelServer {})

/-- What the packets of the client are to the server, apart from the kinds the tunnel also makes up. -/
def onwards : ThreadId × Env × Bytes → List Bytes
  | (.tunnelServer, env, id :: payload) => if id ∈ Server.onwardIds then [Server.onward env (id, payload)] else []
  | _ => []

/-- **One turn.** -/
theorem substream_onward_turn {env : Env} {c : Turns ThreadId Tunnel Socket Locals} {i : ThreadId} {input : Bytes}
    (hc : Owned c) (hok : ClientPackets c i input ∧ c.ended = false) :
    substream tunnelSock Server.onwardIds ((tunnel env).turn c i input).sent =
      substream tunnelSock Server.onwardIds c.sent ++ onwards (i, env, input) := by
  by_cases hi : i = .tunnelServer
  · subst hi
    obtain ⟨p, hp, rfl, hfirst⟩ := hok.1 rfl
    obtain ⟨l, hl⟩ := hc.tunnelServer
    have hlogin : p.1 = 0x00 → l.fucked = false := by
      intro h0
      cases hl.symm.trans (hfirst h0)
      rfl
    rw [(turn_tunnelServer hok.2 hl (p.1 :: p.2)).2, substream_append, substream_packet hp hlogin]
    rfl
  · have hnone : onwards (i, env, input) = [] := by
      cases i with
      | tunnelServer => exact absurd rfl hi
      | _ => rfl
    rw [hnone, List.append_nil]
    rcases turn_did env c i input with hsame | ⟨sent, hsent, hdid⟩
    · rw [hsame]
    · rw [hsent, substream_append, substream_onward_did hdid (fun h => hi (activity_client h)), List.append_nil]

/-- A ping of the client, an announcement and a hot key, and a command in between. The variable that the data of the
    ping are taken from is 7 in all its bytes. -/
def mixedPackets : List (ThreadId × Env × Bytes) :=
  [(.tunnelServer, { junk := fun _ _ => 7 }, 43 :: [1, 2, 3]), (.main, {}, ascii "'back"),
    (.tunnelServer, {}, 0x12 :: [5, 0]), (.tunnelServer, {}, 0x05 :: [0, 1, 0, 2, 0, 3, 1, 1])]

/-- The kinds of packets that `mcConnect` only passes on, the messages apart. -/
def Client.relayedIds : List UInt8 := (relays.map Relay.id).filter (fun id => id ≠ 0x0d)

theorem relayedIds_made : ∀ id ∈ madeIds serverSock, id ∉ Client.relayedIds := by decide +kernel

/-- **One packet of the server.** -/
theorem substream_served {env : Env} {p : Packet} {t : Tunnel} (hp : FromServer t.modes p) (l : McLocals) :
    substream serverSock Client.relayedIds ((mcConnect env l).sent (p.1 :: p.2) t) =
      if p.1 ∈ Client.relayedIds then [p.1 :: p.2] else [] := by
  obtain ⟨id, payload⟩ := p
  by_cases hid : id ∈ Client.relayedIds
  · have hne : id ≠ 0x03 := ne_of_mem_of_not_mem hid (by decide)
    have hmem : (id, payload.length) ∈ serverPackets t.modes := by simpa [FromServer, hne] using hp
    have hspecial : ∀ fast wide : Bool, ∀ e ∈ Client.specials ⟨fast, wide⟩, e.1 ∉ Client.relayedIds := by
      decide +kernel
    rcases mem_serverPackets hmem with ⟨r, hr, rfl, hwidth⟩ | h
    · have hsent : (mcConnect env l).sent (r.id :: payload) t = (relay env serverSock r).sent payload t :=
        sent_mcConnect (Client.relay_mem env hr) l payload t
      rw [hsent, sent_relay env serverSock hwidth.symm, substream_single]
    · exact absurd hid (hspecial t.modes.fast t.modes.wide _ h)
  · rw [if_neg hid]
    -- whatever is made of the packet is of another kind
    have hserved : ∀ id ∈ Client.servedIds, ∀ bs,
        (fun s bs => s = serverSock → ofKinds Client.relayedIds bs = false) serverSock (id :: bs) := by
      intro id' hid' bs _
      have hall : ∀ id ∈ Client.servedIds, id ∉ Client.relayedIds := by decide +kernel
      exact decide_eq_false (hall id' hid')
    have hfollow : ∀ i, Client.Serves (fun s bs => s = serverSock → ofKinds Client.relayedIds bs = false)
        (Client.follow i) :=
      fun i => (Client.made_follow i).mono (fun _ _ hserves => hserves) fun s bs hmade hto =>
        ofKinds_made relayedIds_made (hto ▸ hmade)
    have hother := Client.turns_dispatch env hserved (fun _ _ => decide_eq_false hid) (fun _ => hfollow) l
    rw [mcConnect, sent_recv_id env Client.disconnected (fun id => Client.dispatch env id l)]
    exact substream_eq_nil (hother.sent payload t)

/-- What no packet of the server has caused is made up, towards the client, or it is for the server. -/
theorem substream_relayed_did {env : Env} {t t' : Tunnel} {sent : List (Socket × Bytes)} {a : Activity}
    (h : Did env t t' sent a) (hserver : a ≠ .server) : substream serverSock Client.relayedIds sent = [] := by
  cases a with
  | nothing =>
      rw [h.2]
      rfl
  | command text => exact substream_made relayedIds_made h.2
  | login =>
      rw [h.2]
      rfl
  | server => exact absurd rfl hserver
  | click => exact substream_made relayedIds_made h.2
  | client =>
      exact substream_eq_nil fun e he hto =>
        ofKinds_made relayedIds_made (hto ▸ (h.2 e he).1 (by rw [hto]; decide))
  | build => exact substream_made relayedIds_made h.2

/-- `mcConnect` gets whole packets of the server, once it has logged in. -/
def ServerPackets (c : Turns ThreadId Tunnel Socket Locals) (i : ThreadId) (input : Bytes) : Prop :=
  i = .mcConnect → c.state.loggedIn = true ∧
    (c.locals .mcConnect = .connecting ∧ input = [] ∨
      (∃ l, c.locals .mcConnect = .mcConnect l) ∧ ∃ p, FromServer c.state.modes p ∧ input = p.1 :: p.2)

/-- A packet of the server of a kind that is only passed on. -/
def relayedPacket (e : ThreadId × Env × Bytes) : Bool :=
  decide (e.1 = .mcConnect) && ofKinds Client.relayedIds e.2.2

/-- **One turn.** -/
theorem substream_relayed_turn {env : Env} {c : Turns ThreadId Tunnel Socket Locals} {i : ThreadId} {input : Bytes}
    (hok : ServerPackets c i input ∧ c.ended = false) :
    substream serverSock Client.relayedIds ((tunnel env).turn c i input).sent =
      substream serverSock Client.relayedIds c.sent ++ if relayedPacket (i, env, input) then [input] else [] := by
  have hquiet : activity env input i (c.locals i) ≠ .server → relayedPacket (i, env, input) = false →
      substream serverSock Client.relayedIds ((tunnel env).turn c i input).sent =
        substream serverSock Client.relayedIds c.sent ++ if relayedPacket (i, env, input) then [input] else [] := by
    intro hserver hnone
    rw [hnone, if_neg Bool.false_ne_true, List.append_nil]
    rcases turn_did env c i input with hsame | ⟨sent, hsent, hdid⟩
    · rw [hsame]
    · rw [hsent, substream_append, substream_relayed_did hdid hserver, List.append_nil]
  by_cases hi : i = .mcConnect
  · subst hi
    obtain ⟨hlogged, ⟨hl, rfl⟩ | ⟨⟨l, hl⟩, p, hp, rfl⟩⟩ := hok.1 rfl
    · exact hquiet (by rw [hl]; simp [activity]) rfl
    · rw [(turn_mcConnect hok.2 hlogged hl (p.1 :: p.2)).2, substream_append, substream_served hp]
      refine congrArg (substream serverSock Client.relayedIds c.sent ++ ·) ?_
      by_cases hid : p.1 ∈ Client.relayedIds
      · rw [if_pos hid, if_pos (show relayedPacket (.mcConnect, env, p.1 :: p.2) = true from decide_eq_true hid)]
      · rw [if_neg hid, if_neg (show ¬ relayedPacket (.mcConnect, env, p.1 :: p.2) = true from
          Bool.eq_false_iff.mp (decide_eq_false hid))]
  · exact hquiet (fun h => hi (activity_server h)) (by simp [relayedPacket, hi])

/-- **The packets of the server.** In every run of the four threads in turns in which `mcConnect` gets whole packets,
    into buffers that hold them, and which has not come to an end: what the client gets of the kinds that are only
    passed on are the packets of the server of these kinds, as they are and in order. Each turn finds a memory of its
    own. -/
theorem relayed_runs (t : Tunnel) {sched : List (ThreadId × Env × Bytes)}
    (h : AlwaysWith tunnel (fun c i _ input => ServerPackets c i input) (beginning t) sched)
    (hgoes : (turnsWith tunnel (beginning t) sched).ended = false) :
    substream serverSock Client.relayedIds (turnsWith tunnel (beginning t) sched).sent =
      (sched.filter relayedPacket).map fun e => e.2.2 := by
  have hstep : ∀ (c : Turns ThreadId Tunnel Socket Locals) i (env : Env) input, True →
      ServerPackets c i input ∧ c.ended = false → True := fun _ _ _ _ _ _ => trivial
  have hrun : substream serverSock Client.relayedIds (turnsWith tunnel (beginning t) sched).sent =
      substream serverSock Client.relayedIds (beginning t).sent ++
        sched.flatMap (fun e => if relayedPacket e then [e.2.2] else []) :=
    turnsWith_sent hstep (fun c i env input _ => substream_relayed_turn) trivial (h.and (alwaysWith_running hgoes))
  rw [hrun]
  show [] ++ sched.flatMap (fun e => if relayedPacket e then [e.2.2] else []) = _
  rw [List.nil_append]
  clear h hgoes hrun
  induction sched with
  | nil => rfl
  | cons e sched ih =>
      rw [List.flatMap_cons, ih]
      cases hrelayed : relayedPacket e with
      | false => rw [List.filter_cons_of_neg (by simp [hrelayed])]; rfl
      | true => rw [List.filter_cons_of_pos hrelayed]; rfl

/-- The login of the client, the login to the server, and a ping, a block and the weather from there. -/
def servedPackets : List (ThreadId × Env × Bytes) :=
  [(.tunnelServer, {}, 0x00 :: List.replicate 130 32), (.mcConnect, {}, []), (.mcConnect, {}, [0x01]),
    (.mcConnect, { junk := fun _ _ => 7 }, [0x06, 0, 0, 0, 0, 0, 0, 7]), (.mcConnect, {}, [0x1F, 1])]

/-- The ping and the weather. -/
theorem relayed_runs_served : substream serverSock Client.relayedIds
    (turnsWith tunnel (beginning {}) servedPackets).sent = (servedPackets.filter relayedPacket).map fun e => e.2.2 := by
  refine relayed_runs {} ⟨fun h => absurd h (by decide), ?_, ?_, ?_, ?_, trivial⟩ rfl
  · exact fun _ => ⟨rfl, Or.inl ⟨rfl, rfl⟩⟩
  · exact fun _ => ⟨rfl, Or.inr ⟨⟨{}, rfl⟩, (0x01, []), by decide, rfl⟩⟩
  · exact fun _ => ⟨rfl, Or.inr ⟨⟨{}, rfl⟩, (0x06, [0, 0, 0, 0, 0, 0, 7]), by decide, rfl⟩⟩
  · exact fun _ => ⟨rfl, Or.inr ⟨⟨{}, rfl⟩, (0x1F, [1]), by decide, rfl⟩⟩

end LavaTunnel
