import LavaTunnel.Correctness.ClientHandlers

/-!
# `LavaTunnel.Correctness.ServerRelay` — from the server to the client

`mcConnect` passes the packets of the server on to the client byte for byte, and never loses the place in
the stream where a packet begins. What it changes it changes by design: the version in a MOTD, the packets it
swallows, and its greeting after the first level (`forwarded`). The assumptions of this file: hacks are off,
no player is followed, no extension that changes a packet is negotiated (`Plain`), and texts have no NUL.
-/

namespace LavaTunnel

open Wire Wire.Prog

/-- Hacks off, nobody followed or plotmotioned, and no extension that changes a packet. -/
structure Plain (t : Tunnel) : Prop where
  hax : t.hax = 0
  mode : ∀ i, (t.player i).mode ≠ 1 ∧ (t.player i).mode ≠ 2
  fastMap : t.negotiated CPE.fastMap = false
  extEntityPos : t.negotiated CPE.extEntityPos = false
  extBlocks : t.negotiated CPE.extBlocks = false

/-- The state the program starts in is plain. -/
theorem plain_default : Plain {} := by
  have hne : (0 : Int) ≠ 1 ∧ (0 : Int) ≠ 2 := by decide
  exact ⟨rfl, fun _ => hne, rfl, rfl, rfl⟩

/-- An ordinary packet of the server: complete, at most 1024 bytes of level data, and no NUL in the
    texts of a MOTD. -/
structure Ordinary (p : Packet) : Prop where
  complete : FromServer ⟨false, false⟩ p
  chunk : p.1 = 0x03 → chunkLength p.2 ≤ 1024
  text : p.1 = 0x00 → 0 ∉ field p.2 1 128

/-- The packet of the greeting. -/
def greetingPacket : Bytes := 0x0d :: 0 :: toMCString Client.greeting

/-- What the client gets for a packet of the server; `joined` says that the greeting has been sent. -/
def forwarded (joined : Bool) (p : Packet) : Bytes :=
  if p.1 = 0x14 ∨ p.1 = 42 then []
  else if p.1 = 0x00 then 0x00 :: 0x07 :: p.2.drop 1
  else if p.1 = 0x04 then p.1 :: p.2 ++ (if joined then [] else greetingPacket)
  else p.1 :: p.2

/-- What the client gets for a sequence of packets. -/
def forwardedAll : Bool → List Packet → Bytes
  | _, [] => []
  | joined, p :: ps => forwarded joined p ++ forwardedAll (joined || p.1 == 0x04) ps

/-! ## Texts and counts survive the way through the tunnel -/

/-- A text of 64 bytes without a NUL is copied as it is. -/
theorem strncpy64_eq {text : Bytes} (hlen : text.length = 64) (hnul : 0 ∉ text) :
    strncpy64 text = text := by
  unfold strncpy64
  simp only [cstr_eq hnul, List.take_of_length_le hlen.le, hlen, Nat.sub_self, List.replicate_zero, List.append_nil]

/-! ## One packet -/

/-- The handler of a packet takes the payload, writes what `forwarded` says and goes on, unless it is the
    kick. -/
def Forwards (env : Env) (id : UInt8) (payload : Bytes) (l : McLocals) (t : Tunnel) : Prop :=
  ∃ r t' out, (Client.dispatch env id l).Takes payload t r t' out ∧
    stream serverSock out = forwarded l.joined (id, payload) ∧
    (id = 0x0e → r = none) ∧
    (id ≠ 0x0e → ∃ l', r = some l' ∧ l'.joined = (l.joined || id == 0x04))

section Packets

variable {env : Env} {id : UInt8} {payload : Bytes} {t : Tunnel}

/-- A handler that leaves the locals alone. -/
theorem forwards_of_handler {c : Code Unit} (hc : (id, c) ∈ Client.handlers env) (l : McLocals)
    {t' : Tunnel} {out : List (Socket × Bytes)} (htakes : c.Takes payload t (some ()) t' out)
    (h4 : id ≠ 0x04) (he : id ≠ 0x0e) (hout : stream serverSock out = forwarded l.joined (id, payload)) :
    Forwards env id payload l t := by
  refine ⟨some l, t', out, ?_, hout, fun h => absurd h he, fun _ => ⟨l, rfl, ?_⟩⟩
  · rw [Client.dispatch_of_mem hc]
    have h := htakes.then (f := fun _ => pure l) (Takes.pure l)
    rwa [List.append_nil] at h
  · rw [beq_false_of_ne h4, Bool.or_false]

/-- The packets that are neither swallowed nor changed. -/
theorem forwarded_eq {joined : Bool} (h : id ≠ 0x14 ∧ id ≠ 42 ∧ id ≠ 0x00 ∧ id ≠ 0x04) :
    forwarded joined (id, payload) = id :: payload := by
  unfold forwarded
  rw [if_neg (by simp [h.1, h.2.1]), if_neg h.2.2.1, if_neg h.2.2.2]

/-- A handler that leaves the locals alone and sends the fields of its packet on. -/
theorem forwards_of_fields {c : Code Unit} (hc : (id, c) ∈ Client.handlers env) (l : McLocals)
    {t' : Tunnel} {calls : List Call}
    (hid : id ≠ 0x14 ∧ id ≠ 42 ∧ id ≠ 0x00 ∧ id ≠ 0x04 ∧ id ≠ 0x0e) (widths : List Nat)
    (h : payload.length = widths.sum)
    (hcalls : calls.flatMap Call.bytes = id :: (fieldsFrom payload 0 widths).flatten)
    (htakes : c.Takes payload t (some ()) t' (written serverSock calls)) :
    Forwards env id payload l t := by
  obtain ⟨h14, h42, h0, h4, he⟩ := hid
  refine forwards_of_handler hc l htakes h4 he ?_
  rw [stream_fields widths h hcalls, forwarded_eq ⟨h14, h42, h0, h4⟩]

/-- A relay. -/
theorem forwards_relay {r : Relay} (hr : r ∈ Client.relays) (hwidth : r.width = payload.length)
    (l : McLocals) : Forwards env r.id payload l t := by
  obtain ⟨out, htakes, hout⟩ := takes_relay env serverSock r hwidth.symm t
  have hne : ∀ r ∈ Client.relays, r.id ≠ 0x14 ∧ r.id ≠ 42 ∧ r.id ≠ 0x00 ∧ r.id ≠ 0x04 ∧ r.id ≠ 0x0e := by
    decide
  obtain ⟨h14, h42, h0, h4, he⟩ := hne r hr
  refine forwards_of_handler (Client.relay_mem env hr) l htakes h4 he ?_
  rw [hout, forwarded_eq ⟨h14, h42, h0, h4⟩]

/-- A MOTD: the version is the tunnel's, the texts are the server's. -/
theorem forwards_serverMotd (h : payload.length = 130) (hnul : 0 ∉ field payload 1 128) (hhax : t.hax = 0)
    (l : McLocals) : Forwards env 0x00 payload l t := by
  have hsub : ∀ b, b ∈ field payload 1 64 ∨ b ∈ field payload 65 64 → b ∈ field payload 1 128 := by
    have hsplit : field payload 1 128 = field payload 1 64 ++ field payload 65 64 := by
      unfold field
      rw [show (128 : Nat) = 64 + 64 from rfl, List.take_add, List.drop_drop]
    intro b hb
    rw [hsplit, List.mem_append]
    exact hb
  -- without a zero the two copies of 64 bytes are the fields
  have htext : ∀ offset, (∀ b, b ∈ field payload offset 64 → b ∈ field payload 1 128) →
      offset + 64 ≤ payload.length → Client.motdText t (field payload offset 64) = field payload offset 64 := by
    intro offset hsub hle
    unfold Client.motdText
    rw [if_neg (by omega)]
    exact strncpy64_eq (length_field hle) (fun h0 => hnul (hsub 0 h0))
  refine ⟨_, _, _, Client.takes_serverMotd env t l h, ?_, fun h => absurd h (by decide),
    fun _ => ⟨_, rfl, by simp⟩⟩
  rw [htext 1 (fun b hb => hsub b (Or.inl hb)) (by omega), htext 65 (fun b hb => hsub b (Or.inr hb)) (by omega),
    singleton_headD (length_field (by omega)), stream_written]
  show 0x00 :: 0x07 :: (fieldsFrom payload 1 [64, 64, 1]).flatten = 0x00 :: 0x07 :: payload.drop 1
  rw [flatten_fieldsFrom _ (by rw [h]; rfl)]

/-- The end of a level, and the greeting behind the first one. -/
theorem forwards_levelFinal (hz : env.zlib.EndDocumented) (h : payload.length = 6) (l : McLocals) :
    Forwards env 0x04 payload l t := by
  refine ⟨_, _, _, Client.takes_levelFinal env t l h (Client.not_zlibError env hz _), ?_, fun h =>
    absurd h (by decide),
    fun _ => ⟨_, rfl, by simp⟩⟩
  rw [stream_append, stream_fields [2, 2, 2] h rfl, stream_written]
  unfold Client.greet forwarded
  cases l.joined <;> simp [greetingPacket]

/-- A handler that sends its packet on and then follows nobody. -/
theorem forwards_follow {c : Code Unit} (hc : (id, c) ∈ Client.handlers env) (l : McLocals)
    {t' : Tunnel} {calls : List Call} {out : List (Socket × Bytes)} {i : Int}
    (hid : id ≠ 0x14 ∧ id ≠ 42 ∧ id ≠ 0x00 ∧ id ≠ 0x04 ∧ id ≠ 0x0e) (widths : List Nat)
    (h : payload.length = widths.sum)
    (hcalls : calls.flatMap Call.bytes = id :: (fieldsFrom payload 0 widths).flatten)
    (htakes : c.Takes payload t (some ()) t' (written serverSock calls ++ out))
    (hquiet : (t'.player i).mode ≠ 1 → (t'.player i).mode ≠ 2 → out = [])
    (hmode : (t'.player i).mode ≠ 1 ∧ (t'.player i).mode ≠ 2) : Forwards env id payload l t := by
  rw [hquiet hmode.1 hmode.2, List.append_nil] at htakes
  exact forwards_of_fields hc l hid widths h hcalls htakes

end Packets

/-- **Every handler forwards its packet.** -/
theorem forwards {env : Env} {p : Packet} {t : Tunnel} (hz : env.zlib.EndDocumented) (hp : Ordinary p)
    (ht : Plain t) (l : McLocals) : Forwards env p.1 p.2 l t := by
  obtain ⟨id, payload⟩ := p
  show Forwards env id payload l t
  by_cases h3 : id = 0x03
  · subst h3
    have hchunk : LevelChunk payload := by simpa [FromServer] using hp.complete
    obtain ⟨out, htakes, hout⟩ := Client.takes_levelData env t hchunk
    exact forwards_of_handler (Client.own_mem (by repeat constructor)) l htakes (by decide) (by decide)
      (by rw [hout, forwarded_eq (by decide)])
  have hmem : (id, payload.length) ∈ serverPackets ⟨false, false⟩ := by
    simpa [FromServer, h3] using hp.complete
  rcases mem_serverPackets hmem with ⟨r, hr, rfl, hwidth⟩ | hspecial
  · exact forwards_relay hr hwidth l
  simp only [Client.specials, Bool.false_eq_true, if_false, List.mem_cons, Prod.mk.injEq, List.not_mem_nil,
    or_false] at hspecial
  -- one case a handler, in the order of `Client.specials`
  rcases hspecial with ⟨rfl, h⟩ | ⟨rfl, h⟩ | ⟨rfl, h⟩ | ⟨rfl, h⟩ | ⟨rfl, h⟩ | ⟨rfl, h⟩ | ⟨rfl, h⟩ |
    ⟨rfl, h⟩ | ⟨rfl, h⟩ | ⟨rfl, h⟩ | ⟨rfl, h⟩ | ⟨rfl, h⟩ | ⟨rfl, h⟩ | ⟨rfl, h⟩ | ⟨rfl, h⟩ | ⟨rfl, h⟩ |
    ⟨rfl, h⟩ | ⟨rfl, h⟩ | ⟨rfl, h⟩
  · exact forwards_serverMotd h (hp.text rfl) ht.hax l
  · obtain ⟨out, htakes, hout⟩ := Client.takes_levelInt env t
      (h.trans (by rw [show t.modes.fast = false from ht.fastMap]; rfl))
    exact forwards_of_handler (Client.own_mem (by repeat constructor)) l htakes (by decide) (by decide)
      (by rw [hout, forwarded_eq (by decide)])
  · exact forwards_levelFinal hz h l
  · exact forwards_of_fields (Client.own_mem (by repeat constructor)) l (by decide) [2, 2, 2, 1] h rfl
      (Client.takes_setBlockPacket env t h)
  · exact forwards_of_fields (Client.own_mem (by repeat constructor)) l (by decide) [1, 64, 2, 2, 2, 1, 1] h rfl
      (Client.takes_spawnPlayer env t h)
  · obtain ⟨out, htakes, hquiet⟩ := Client.takes_posAndOrientation env t 2
      (if_neg (by rw [ht.extEntityPos]; decide)) h
    refine forwards_follow (Client.own_mem (by repeat constructor)) l (by decide) [1, 2, 2, 2, 1, 1] h rfl htakes
      hquiet ?_
    rw [Client.mode_placed]
    exact ht.mode _
  · obtain ⟨out, htakes, hquiet⟩ := Client.takes_posOffsetUpdate env t h
    refine forwards_follow (Client.own_mem (by repeat constructor)) l (by decide) [1, 1, 1, 1, 1, 1] h rfl htakes
      hquiet ?_
    rw [Client.mode_turned, Client.mode_stepped]
    exact ht.mode _
  · obtain ⟨out, htakes, hquiet⟩ := Client.takes_posUpdate env t h
    refine forwards_follow (Client.own_mem (by repeat constructor)) l (by decide) [1, 1, 1, 1] h rfl htakes
      hquiet ?_
    rw [Client.mode_stepped]
    exact ht.mode _
  · exact forwards_of_fields (Client.own_mem (by repeat constructor)) l (by decide) [1, 1, 1] h rfl
      (Client.takes_orientationUpdate env t h)
  · exact forwards_of_fields (Client.own_mem (by repeat constructor)) l (by decide) [1] h rfl
      (Client.takes_playerDisconnect env t h)
  · refine ⟨none, _, _, Client.takes_kick env t h, ?_, fun _ => rfl, fun hne => absurd rfl hne⟩
    rw [stream_fields [64] h rfl, forwarded_eq (by decide)]
  · have hcount := Client.takes_extInfo env t h
    rw [bytesOf_htons_host (length_field (by omega))] at hcount
    exact forwards_of_fields (Client.own_mem (by repeat constructor)) l (by decide) [64, 2] h rfl hcount
  · exact forwards_of_fields (Client.own_mem (by repeat constructor)) l (by decide) [64, 4] h rfl
      (Client.takes_extEntry env t h)
  · exact forwards_of_handler (Client.own_mem (by repeat constructor)) l (Client.takes_holdThis env t h)
      (by decide) (by decide) rfl
  · exact forwards_of_fields (Client.own_mem (by repeat constructor)) l (by decide) [2] h rfl
      (Client.takes_extRemovePlayerName env t h)
  · have hcalls := Client.takes_setBlockPermission env t h
    rw [Client.permissionCalls, if_neg (by rw [ht.hax]; decide)] at hcalls
    exact forwards_of_fields (Client.own_mem (by repeat constructor)) l (by decide) [1, 1, 1] h rfl hcalls
  · have hcalls := Client.takes_hackcontrol env t h
    rw [Client.hackCalls, if_neg (by rw [ht.hax]; decide)] at hcalls
    exact forwards_of_fields (Client.own_mem (by repeat constructor)) l (by decide) [1, 1, 1, 1, 1, 2] h rfl hcalls
  · exact forwards_of_fields (Client.own_mem (by repeat constructor)) l (by decide) [1, 64, 64, 2, 2, 2, 1, 1] h rfl
      (Client.takes_extAddEntity2 env t ht.extEntityPos h)
  · exact forwards_of_handler (Client.own_mem (by repeat constructor)) l (Client.takes_entityProperty env t h)
      (by decide) (by decide) rfl

/-! ## The loop -/

end LavaTunnel
