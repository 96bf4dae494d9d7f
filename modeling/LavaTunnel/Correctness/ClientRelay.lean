import LavaTunnel.Correctness.ServerHandlers

/-!
# `LavaTunnel.Correctness.ClientRelay` — from the client to the server

`tunnelServer` should pass the packets of the client on as `mcConnect` does for the server: one packet a
round, byte for byte. For most packets it does. A further login is not taken whole, four packets are taken or
sent with a field too few or too many, a text ends at its NUL, and the two way ping sends what was never
received (`Faithful`). The assumptions of this file: no points are being set, and the modes that change
packets are off (`Off`).
-/

namespace LavaTunnel

open Wire Wire.Prog

/-- No points being set, no painting, not hidden, not gimped. -/
structure Off (t : Tunnel) : Prop where
  zPlace : t.zPlace = false
  paint : t.paint = false
  hide : t.hide = false
  gimped : t.gimped = false

/-- The ids `tunnelServer` passes on, besides the click. -/
def sharedIds : List UInt8 :=
  [0x08, 0x0d, 0x11, 0x12, 0x13, 0x14, 0x15, 0x16, 0x18, 0x19, 0x1A, 0x1B, 0x1C, 0x1D, 0x1E, 0x1F, 0x21, 0x22,
    43]

/-- The payload lengths of the packets to pass on: for an id of both directions the length is the one
    `mcConnect` takes. -/
def userPackets : List (UInt8 × Nat) :=
  (0x05, 8) :: (serverPackets ⟨false, false⟩).filter (fun e => e.1 ∈ sharedIds)

/-- A complete packet of the client after its login: a further login, or a packet to pass on. -/
structure FromUser (env : Env) (p : Packet) : Prop where
  complete : (p.1, p.2.length) ∈ (0x00, 130) :: userPackets
  noCommand : p.1 = 0x0d → Server.isCommand env (field p.2 1 64) = false

/-- What the server is to get for a packet of the client. -/
def passedOn (p : Packet) : Bytes := if p.1 = 0x00 then [] else p.1 :: p.2

/-- The packets `tunnelServer` passes on as they came. -/
structure Faithful (env : Env) (p : Packet) : Prop where
  id : p.1 ∉ ([0x00, 0x15, 0x1E, 0x21, 0x22] : List UInt8)
  text : p.1 = 0x0d → 0 ∉ field p.2 1 64
  data : p.1 = 43 → field p.2 1 2 = env.undef 2

/-! ## One round -/

/-- A round takes just the packet `p` and sends what the server is to get. -/
def RoundExact (env : Env) (p : Packet) (l : ServerLocals) (t : Tunnel) (rest : Bytes) : Prop :=
  ∃ l' t' out, (tunnelServer env l).run (p.1 :: (p.2 ++ rest)) t = ⟨some l', rest, t', out⟩ ∧
    stream tunnelSock out = passedOn p

section Round

variable {env : Env} {id : UInt8} {payload : Bytes} {l : ServerLocals} {t : Tunnel}

/-- A handler that takes the payload makes the round exact just if it writes the packet. -/
theorem roundExact_iff {c : Code Unit} (hc : (id, c) ∈ Server.handlers env) (hid : id ≠ 0x00)
    {t' : Tunnel} {out : List (Socket × Bytes)} (htakes : c.Takes payload t (some ()) t' out) (rest : Bytes) :
    RoundExact env (id, payload) l t rest ↔ stream tunnelSock out = id :: payload := by
  have hrun : (tunnelServer env l).run (id :: (payload ++ rest)) t = ⟨some l, rest, t', out⟩ := by
    rw [run_tunnelServer hc, htakes rest]
    simp [andThen, Outcome.after]
  have hpass : passedOn (id, payload) = id :: payload := if_neg hid
  unfold RoundExact
  rw [hpass]
  constructor
  · rintro ⟨l', t'', out', hrun', hout⟩
    cases hrun.symm.trans hrun'
    exact hout
  · exact fun hout => ⟨l, t', out, hrun, hout⟩

/-- A handler that writes another number of bytes than its packet has. -/
theorem not_roundExact_of_length {c : Code Unit} (hc : (id, c) ∈ Server.handlers env) (hid : id ≠ 0x00)
    {rest : Bytes} {r : Option Unit} {i' : Bytes} {t' : Tunnel} {out : List (Socket × Bytes)}
    (hrun : c.run (payload ++ rest) t = ⟨r, i', t', out⟩)
    (hlen : (stream tunnelSock out).length ≠ payload.length + 1) :
    ¬ RoundExact env (id, payload) l t rest := by
  rintro ⟨l', t'', out', hrun', hout⟩
  have hpass : passedOn (id, payload) = id :: payload := if_neg hid
  rw [run_tunnelServer hc, hrun] at hrun'
  have heq : out = out' := by
    cases r with
    | none => exact congrArg Outcome.out hrun'
    | some _ => simpa [andThen, Outcome.after] using congrArg Outcome.out hrun'
  rw [heq, hout, hpass, List.length_cons] at hlen
  exact hlen rfl

/-- A handler that takes a part of the payload only. -/
theorem not_roundExact_of_take {c : Code Unit} (hc : (id, c) ∈ Server.handlers env) {n : Nat}
    (hn : n < payload.length) {r : Option Unit} {t' : Tunnel} {out : List (Socket × Bytes)}
    (htakes : c.Takes (payload.take n) t r t' out) (rest : Bytes) :
    ¬ RoundExact env (id, payload) l t rest := by
  rintro ⟨l', t'', out', hrun', -⟩
  rw [run_tunnelServer hc, ← List.take_append_drop n payload, List.append_assoc,
    htakes (payload.drop n ++ rest)] at hrun'
  have hinput : payload.drop n ++ rest = rest := by
    cases r with
    | none => exact congrArg Outcome.input hrun'
    | some _ => exact congrArg Outcome.input hrun'
  have hlen := congrArg List.length hinput
  rw [List.length_append, List.length_drop] at hlen
  omega

/-- A packet is a further login, has a relay of its length, or one of these. -/
theorem mem_userPackets {n : Nat} (h : (id, n) ∈ userPackets) :
    (∃ r ∈ Server.relays, r.id = id ∧ r.width = n ∧ id ∉ ([0x00, 0x15, 0x1E, 0x21, 0x22, 0x0d, 43] : List UInt8)) ∨
      (id, n) ∈ ([(0x05, 8), (0x08, 9), (0x0d, 65), (0x11, 68), (0x15, 133), (0x1E, 72), (0x21, 137), (0x22, 14),
        (43, 3)] : List (UInt8 × Nat)) := by
  have hall : ∀ e ∈ userPackets, (∃ r ∈ Server.relays, r.id = e.1 ∧ r.width = e.2 ∧
      e.1 ∉ ([0x00, 0x15, 0x1E, 0x21, 0x22, 0x0d, 43] : List UInt8)) ∨
      e ∈ ([(0x05, 8), (0x08, 9), (0x0d, 65), (0x11, 68), (0x15, 133), (0x1E, 72), (0x21, 137), (0x22, 14),
        (43, 3)] : List (UInt8 × Nat)) := by
    decide
  exact hall (id, n) h

/-- A payload of two fields. -/
theorem payload_pair {m n : Nat} (h : payload.length = m + n) :
    payload = field payload 0 m ++ field payload m n := by
  have hflat : (fieldsFrom payload 0 [m, n]).flatten = payload.drop 0 :=
    flatten_fieldsFrom [m, n] (by simpa using h)
  simpa [fieldsFrom] using hflat.symm

theorem faithful_iff : Faithful env (id, payload) ↔ id ∉ ([0x00, 0x15, 0x1E, 0x21, 0x22] : List UInt8) ∧
    (id = 0x0d → 0 ∉ field payload 1 64) ∧ (id = 43 → field payload 1 2 = env.undef 2) :=
  ⟨fun h => ⟨h.id, h.text, h.data⟩, fun ⟨hid, htext, hdata⟩ => ⟨hid, htext, hdata⟩⟩

theorem faithful_of_ne (hid : id ∉ ([0x00, 0x15, 0x1E, 0x21, 0x22, 0x0d, 43] : List UInt8)) :
    Faithful env (id, payload) := by
  simp only [List.mem_cons, List.not_mem_nil, or_false, not_or] at hid
  obtain ⟨h0, h15, h1E, h21, h22, hd, h43⟩ := hid
  exact ⟨by simp [h0, h15, h1E, h21, h22], fun h => absurd h hd, fun h => absurd h h43⟩

theorem not_faithful (hid : id ∈ ([0x00, 0x15, 0x1E, 0x21, 0x22] : List UInt8)) :
    ¬ Faithful env (id, payload) := fun h => h.id hid

end Round

/-- **A round is exact just for the packets that are passed on as they came.** -/
theorem roundExact_iff_faithful {env : Env} {p : Packet} (hp : FromUser env p) {l : ServerLocals}
    (hl : l.fucked = true) {t : Tunnel} (ht : Off t) (rest : Bytes) :
    RoundExact env p l t rest ↔ Faithful env p := by
  obtain ⟨id, payload⟩ := p
  rcases List.mem_cons.mp hp.complete with hlogin | hmem
  · -- a further login: only the id is taken
    obtain ⟨rfl, hlen⟩ : id = 0x00 ∧ payload.length = 130 := Prod.mk.inj hlogin
    refine iff_of_false ?_ (not_faithful (by decide))
    rintro ⟨l', t', out, hrun, -⟩
    rw [tunnelServer, run_recv_id env Prog.exit (fun id => Server.dispatch env id l)] at hrun
    have htaken := Server.takes_dispatch_relogin env t hl (payload ++ rest)
    rw [List.nil_append] at htaken
    have hinput : payload ++ rest = rest := congrArg Outcome.input (htaken.symm.trans hrun)
    have hcount := congrArg List.length hinput
    rw [List.length_append] at hcount
    omega
  -- what one relay copies is exact; each of the other packets has its own case
  rcases mem_userPackets hmem with ⟨r, hr, rfl, hwidth, hid⟩ | hspecial
  · obtain ⟨out, htakes, hout⟩ := takes_relay env tunnelSock r hwidth.symm t
    have h0 : r.id ≠ 0x00 := fun h0 => hid (by show r.id ∈ _; rw [h0]; decide)
    exact iff_of_true ((roundExact_iff (Server.relay_mem env hr) h0 htakes rest).mpr hout) (faithful_of_ne hid)
  simp only [List.mem_cons, Prod.mk.injEq, List.not_mem_nil, or_false] at hspecial
  rcases hspecial with ⟨rfl, h⟩ | ⟨rfl, h⟩ | ⟨rfl, h⟩ | ⟨rfl, h⟩ | ⟨rfl, h⟩ | ⟨rfl, h⟩ | ⟨rfl, h⟩ |
    ⟨rfl, h⟩ | ⟨rfl, h⟩
  · -- a click
    refine iff_of_true ?_ (faithful_of_ne (by decide))
    rw [roundExact_iff (Server.own_mem (by repeat constructor)) (by decide)
      (Server.takes_setBlockClick env t ht.zPlace h)]
    refine stream_fields [2, 2, 2, 1, 1] h ?_
    rw [Server.clickCalls, ht.paint]
    rfl
  · -- a position
    refine iff_of_true ?_ (faithful_of_ne (by decide))
    rw [roundExact_iff (Server.own_mem (by repeat constructor)) (by decide)
      (Server.takes_posUpdate env t ht.hide h)]
    exact stream_fields [1, 2, 2, 2, 1, 1] h rfl
  · -- a chat message
    have htext : (field payload 1 64).length = 64 := length_field (by omega)
    rw [roundExact_iff (Server.own_mem (by repeat constructor)) (by decide)
      (Server.takes_chatMessage env t ht.gimped (hp.noCommand rfl) h), stream_written]
    show 0x0d :: ([byte (field payload 0 1)] ++ (toMCString (field payload 1 64) ++ [])) = _ ↔ _
    rw [byte, singleton_headD (length_field (by omega)), List.append_nil]
    have hpayload : 0x0d :: payload = 0x0d :: (field payload 0 1 ++ field payload 1 64) :=
      congrArg _ (payload_pair (m := 1) (n := 64) h)
    constructor
    · intro heq
      have hsame := List.append_cancel_left (List.cons.inj (heq.trans hpayload)).2
      exact faithful_iff.mpr ⟨by decide, fun _ => (toMCString_eq_iff htext).mp hsame, fun h => absurd h (by decide)⟩
    · intro hf
      rw [(toMCString_eq_iff htext).mpr (hf.text rfl)]
      exact hpayload.symm
  · -- an announcement
    refine iff_of_true ?_ (faithful_of_ne (by decide))
    rw [roundExact_iff (Server.own_mem (by repeat constructor)) (by decide) (Server.takes_extEntry env t h)]
    exact stream_fields [64, 4] h rfl
  · -- a text hot key: `keymods` is not sent
    refine iff_of_false ?_ (not_faithful (by decide))
    refine not_roundExact_of_length (Server.own_mem (by repeat constructor)) (by decide)
      (Server.takes_textHotKey env t h rest) ?_
    simp (disch := omega) [stream_written, length_field, h]
  · -- a map appearance: the levels are not taken
    refine iff_of_false ?_ (not_faithful (by decide))
    have hfirst : (payload.take 68).length = Server.envMapAppearence.width := List.length_take_of_le (by omega)
    obtain ⟨out, htakes, -⟩ := takes_relay env tunnelSock Server.envMapAppearence hfirst t
    exact not_roundExact_of_take (Server.relay_mem env (by decide)) (by omega) htakes rest
  · -- an entity: `entityid` is not sent
    refine iff_of_false ?_ (not_faithful (by decide))
    refine not_roundExact_of_length (Server.own_mem (by repeat constructor)) (by decide)
      (Server.takes_extAddEntity2 env t h rest) ?_
    simp (disch := omega) [stream_written, length_field, h]
  · -- a player's click: `buttondown` is sent too
    refine iff_of_false ?_ (not_faithful (by decide))
    obtain ⟨i', out, hrun, hlen⟩ := run_relay_any env tunnelSock Server.playerClicked (payload ++ rest) t
    refine not_roundExact_of_length (Server.relay_mem env (by decide)) (by decide) hrun ?_
    rw [hlen, h]
    decide
  · -- a two way ping: the bytes of `data` are sent
    rw [roundExact_iff (Server.own_mem (by repeat constructor)) (by decide) (Server.takes_twoWayPing env t h),
      stream_written]
    show 43 :: (field payload 0 1 ++ (env.undef 2 ++ [])) = _ ↔ _
    rw [List.append_nil]
    have hpayload : 43 :: payload = 43 :: (field payload 0 1 ++ field payload 1 2) :=
      congrArg _ (payload_pair (m := 1) (n := 2) h)
    constructor
    · intro heq
      have hsame := List.append_cancel_left (List.cons.inj (heq.trans hpayload)).2
      exact faithful_iff.mpr ⟨by decide, fun h => absurd h (by decide), fun _ => hsame.symm⟩
    · intro hf
      rw [← hf.data rfl]
      exact hpayload.symm

/-! ## The loop -/

/-- Every round takes one packet, and at every moment the server has got its packets in order. -/
def Exact (env : Env) (fs : List (Tunnel → Tunnel)) (l : ServerLocals) (ps : List Packet) (t : Tunnel)
    (rest : Bytes) : Prop :=
  ∀ k ≤ ps.length, ∃ l' t' out,
    (rounds (tunnelServer env) (fs.take k) l).run (encode ps ++ rest) t =
        ⟨some l', encode (ps.drop k) ++ rest, t', out⟩ ∧
      stream tunnelSock out = (ps.take k).flatMap passedOn

section Loop

variable {env : Env} {f : Tunnel → Tunnel} {fs : List (Tunnel → Tunnel)} {l : ServerLocals} {p : Packet}
  {ps : List Packet} {t : Tunnel} {rest : Bytes}

theorem exact_nil : Exact env fs l [] t rest := by
  intro k hk
  obtain rfl : k = 0 := Nat.le_zero.mp hk
  exact ⟨l, t, [], rfl, rfl⟩

/-- A run is exact if its first round is and what follows is. -/
theorem exact_cons : Exact env (f :: fs) l (p :: ps) t rest ↔
    ∃ l' t' out, (tunnelServer env l).run (p.1 :: (p.2 ++ (encode ps ++ rest))) (f t) =
        ⟨some l', encode ps ++ rest, t', out⟩ ∧
      stream tunnelSock out = passedOn p ∧ Exact env fs l' ps t' rest := by
  have hencode : encode (p :: ps) ++ rest = p.1 :: (p.2 ++ (encode ps ++ rest)) := by simp
  -- one round splits off in front; what it sends is cancelled from the rest
  constructor
  · intro h
    obtain ⟨l', t', out, hrun, hout⟩ := h 1 (by simp)
    rw [List.take_succ_cons, List.take_zero, run_rounds_one, hencode] at hrun
    refine ⟨l', t', out, hrun, by simpa using hout, fun k hk => ?_⟩
    obtain ⟨l'', t'', out', hrun', hout'⟩ := h (k + 1) (by simpa using hk)
    rw [List.take_succ_cons, run_rounds_cons, hencode, hrun] at hrun'
    change Outcome.after out ((rounds (tunnelServer env) (fs.take k) l').run (encode ps ++ rest) t') = _ at hrun'
    obtain ⟨r, i', s', out'', hrest⟩ : ∃ r i' s' out'',
        (rounds (tunnelServer env) (fs.take k) l').run (encode ps ++ rest) t' = ⟨r, i', s', out''⟩ :=
      ⟨_, _, _, _, rfl⟩
    rw [hrest] at hrun'
    cases hrun'
    refine ⟨_, _, _, hrest, ?_⟩
    rw [stream_append, List.take_succ_cons, List.flatMap_cons] at hout'
    rw [List.take_succ_cons, List.take_zero, List.flatMap_cons, List.flatMap_nil, List.append_nil] at hout
    rw [hout] at hout'
    exact List.append_cancel_left hout'
  · rintro ⟨l', t', out, hrun, hout, h⟩ k hk
    cases k with
    | zero => exact ⟨l, t, [], by simp [run_rounds_nil], rfl⟩
    | succ k =>
        obtain ⟨l'', t'', out', hrun', hout'⟩ := h k (by simpa using hk)
        refine ⟨l'', t'', out ++ out', ?_, ?_⟩
        · rw [List.take_succ_cons, run_rounds_cons, hencode, hrun]
          show Outcome.after out _ = _
          rw [hrun']
          rfl
        · rw [stream_append, hout, hout', List.take_succ_cons, List.flatMap_cons]

end Loop

/-- A program that ends with `pure b` has no other result. -/
theorem result_of_bind_pure {α β : Type} {c : Code α} {b b' : β} {i i' : Bytes} {t t' : Tunnel}
    {out : List (Socket × Bytes)} (hrun : (do let _ ← c; pure b : Code β).run i t = ⟨some b', i', t', out⟩) :
    b' = b := by
  rw [run_bind_pure] at hrun
  obtain ⟨_, -, rfl⟩ := Option.map_eq_some_iff.mp (congrArg Outcome.result hrun)
  rfl

/-- A round after the login ends with the locals it began with. -/
theorem locals_of_round {env : Env} {id : UInt8} {l l' : ServerLocals} (hl : l.fucked = true)
    {t t' : Tunnel} {i i' : Bytes} {out : List (Socket × Bytes)}
    (hrun : (tunnelServer env l).run (id :: i) t = ⟨some l', i', t', out⟩) : l' = l := by
  rw [tunnelServer, run_recv_id env Prog.exit (fun id => Server.dispatch env id l)] at hrun
  unfold Server.dispatch at hrun
  rw [if_neg (by simp [hl])] at hrun
  cases hc : (Server.handlers env).lookup id with
  | none =>
      rw [hc] at hrun
      exact (Option.some.inj (congrArg Outcome.result hrun)).symm
  | some c =>
      rw [hc] at hrun
      exact result_of_bind_pure hrun

theorem exact_iff_faithful {env : Env} {ps : List Packet} (hps : ∀ p ∈ ps, FromUser env p)
    {fs : List (Tunnel → Tunnel)} (hlen : fs.length = ps.length) {l : ServerLocals} (hl : l.fucked = true)
    {t : Tunnel} {rest : Bytes} (hoff : RoundsIn Off (tunnelServer env) fs l (encode ps ++ rest) t) :
    Exact env fs l ps t rest ↔ ∀ p ∈ ps, Faithful env p := by
  -- `fucked` stays set, so every round judges its packet in the same way
  induction ps generalizing fs t with
  | nil => exact iff_of_true exact_nil (by simp)
  | cons p ps ih =>
      obtain ⟨f, fs, rfl⟩ := List.exists_cons_of_length_eq_add_one hlen
      obtain ⟨hf, hoff⟩ := hoff
      have hencode : encode (p :: ps) ++ rest = p.1 :: (p.2 ++ (encode ps ++ rest)) := by simp
      rw [hencode] at hoff
      have hp := hps p List.mem_cons_self
      have hround := roundExact_iff_faithful hp hl hf (encode ps ++ rest)
      have hps' : ∀ q ∈ ps, FromUser env q := fun q hq => hps q (List.mem_cons_of_mem p hq)
      rw [exact_cons, List.forall_mem_cons]
      constructor
      · rintro ⟨l', t', out, hrun, hout, hrest⟩
        obtain rfl := locals_of_round hl hrun
        exact ⟨hround.mp ⟨l', t', out, hrun, hout⟩,
          (ih hps' (by simpa using hlen) (hoff _ _ _ _ hrun)).mp hrest⟩
      · rintro ⟨hfirst, hrest⟩
        obtain ⟨l', t', out, hrun, hout⟩ := hround.mpr hfirst
        obtain rfl := locals_of_round hl hrun
        exact ⟨l', t', out, hrun, hout,
          (ih hps' (by simpa using hlen) (hoff _ _ _ _ hrun)).mpr hrest⟩

/-- The first round takes the login. -/
theorem run_login (env : Env) {login : Bytes} (h : login.length = 130) (i : Bytes) (t : Tunnel) :
    (tunnelServer env {}).run (0x00 :: (login ++ i)) t =
      ⟨some { fucked := true }, i, Server.loggedIn env login t, []⟩ := by
  have htakes := Server.takes_login env t h
  rw [← Server.dispatch_login env (l := {}) rfl] at htakes
  exact takes_tunnelServer (p := (0x00, login)) htakes i

/-- **Client-to-server relay exactness.** After one login, every round takes one packet and sends it as it
    came just if no packet of the run is of the six kinds that are not passed on so. -/
theorem tunnelServer_relays_iff (env : Env) (login : Bytes) (hlogin : login.length = 130) (ps : List Packet)
    (hps : ∀ p ∈ ps, FromUser env p) (fs : List (Tunnel → Tunnel)) (hlen : fs.length = ps.length + 1)
    (t : Tunnel) (rest : Bytes)
    (hoff : RoundsIn Off (tunnelServer env) fs {} (encode ((0x00, login) :: ps) ++ rest) t) :
    Exact env fs {} ((0x00, login) :: ps) t rest ↔ ∀ p ∈ ps, Faithful env p := by
  obtain ⟨f, fs, rfl⟩ := List.exists_cons_of_length_eq_add_one hlen
  have hencode : encode ((0x00, login) :: ps) ++ rest = 0x00 :: (login ++ (encode ps ++ rest)) := by simp
  rw [hencode] at hoff
  have hround := run_login env hlogin (encode ps ++ rest) (f t)
  rw [exact_cons, ← exact_iff_faithful hps (by simpa using hlen) rfl (hoff.2 _ _ _ _ hround)]
  constructor
  · rintro ⟨l', t', out, hrun, -, hrest⟩
    cases hround.symm.trans hrun
    exact hrest
  · exact fun hrest => ⟨_, _, _, hround, rfl, hrest⟩

/-- The state the program starts in is `Off`, and the login keeps it so. -/
theorem roundsIn_off_login {login : Bytes} (h : login.length = 130) (ps : List Packet) :
    RoundsIn Off (tunnelServer {}) [id, id] {} (encode ((0x00, login) :: ps) ++ []) {} := by
  have hencode : encode ((0x00, login) :: ps) ++ [] = 0x00 :: (login ++ (encode ps ++ [])) := by simp
  rw [hencode]
  refine ⟨⟨rfl, rfl, rfl, rfl⟩, fun l' i' t' out hrun => ⟨?_, fun _ _ _ _ _ => trivial⟩⟩
  cases (run_login {} h (encode ps ++ []) {}).symm.trans hrun
  exact ⟨rfl, rfl, rfl, rfl⟩

/-- A click distance is passed on. -/
theorem tunnelServer_relays_click :
    Exact {} [id, id] {} [(0x00, List.replicate 130 0), (0x12, [0, 160])] {} [] ↔
      ∀ p ∈ [((0x12 : UInt8), ([0, 160] : Bytes))], Faithful {} p := by
  refine tunnelServer_relays_iff {} (List.replicate 130 0) List.length_replicate [(0x12, [0, 160])] ?_ [id, id]
    rfl {} []
    (roundsIn_off_login List.length_replicate _)
  intro p hp
  obtain rfl := List.mem_singleton.mp hp
  exact ⟨by decide, fun h => absurd h (by decide)⟩

/-- The server does not get the last byte of a text hot key. -/
theorem tunnelServer_drops_keymods :
    FromUser {} (0x15, List.replicate 133 0) ∧
      RoundsIn Off (tunnelServer {}) [id, id] {}
        (encode [(0x00, List.replicate 130 0), (0x15, List.replicate 133 0)] ++ []) {} ∧
      ¬ Exact {} [id, id] {} [(0x00, List.replicate 130 0), (0x15, List.replicate 133 0)] {} [] := by
  have huser : FromUser {} (0x15, List.replicate 133 0) :=
    ⟨by rw [List.length_replicate]; decide, fun h => absurd h (by decide)⟩
  refine ⟨huser, roundsIn_off_login List.length_replicate _, fun h => ?_⟩
  obtain ⟨l, t, out, hlogin, -, hrest⟩ := exact_cons.mp h
  obtain ⟨l', t', out', hkey, hsent, -⟩ := exact_cons.mp hrest
  cases (run_login {} List.length_replicate _ _).symm.trans hlogin
  have hoff : Off (Server.loggedIn {} (List.replicate 130 0) {}) := ⟨rfl, rfl, rfl, rfl⟩
  have hf := (roundExact_iff_faithful huser rfl hoff _).mp ⟨l', t', out', hkey, hsent⟩
  exact not_faithful (by decide) hf

end LavaTunnel
