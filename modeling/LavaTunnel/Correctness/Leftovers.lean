import LavaTunnel.Correctness.RoundFrames

/-!
# `LavaTunnel.Correctness.Leftovers` — what earlier packets have left in the memory

No handler sets its variables before it receives into them, so a packet that is cut short takes from the memory what
has not arrived: bytes of an earlier packet, for one. A packet that is there in full overwrites them. Most handlers read
nothing but what they have received, and to these it makes no difference over which memory they run.
-/

namespace LavaTunnel

open Wire Wire.Prog

/-- From `t`, on `n` bytes at least, both pieces of code do the same. -/
def Indifferent {α : Type} (t : Tunnel) (n : Nat) (c c' : Code α) : Prop :=
  ∀ i : Bytes, n ≤ i.length → c.run i t = c'.run i t ∧ c.sent i t = c'.sent i t

section Rules

variable {α : Type} {t : Tunnel} {n k : Nat} (env env' : Env)

theorem Indifferent.refl (c : Code α) : Indifferent t n c c := fun _ _ => ⟨rfl, rfl⟩

/-- More than enough is enough. -/
theorem Indifferent.mono {c c' : Code α} (h : Indifferent t n c c') (hk : n ≤ k) : Indifferent t k c c' :=
  fun i hi => h i (hk.trans hi)

/-- The same goes on behind both. -/
theorem Indifferent.bind {β : Type} {c c' : Code α} (h : Indifferent t n c c') (f : α → Code β) :
    Indifferent t n (c >>= f) (c' >>= f) := by
  intro i hi
  obtain ⟨hrun, hsent⟩ := h i hi
  rw [run_bind, run_bind, sent_bind, sent_bind, hrun, hsent]
  exact ⟨rfl, rfl⟩

theorem Indifferent.getState_bind {f f' : Tunnel → Code α} (h : Indifferent t n (f t) (f' t)) :
    Indifferent t n (getState >>= f) (getState >>= f') := fun i hi => h i hi

/-- **A variable that is received in full** holds the same over any memory. -/
theorem indifferent_recvVarW {f f' : Bytes → Code α} (hk : k ≤ n) (h : ∀ v, Indifferent t (n - k) (f v) (f' v)) :
    Indifferent t n (recvVarW env k >>= f) (recvVarW env' k >>= f') := by
  intro i hi
  have hfull : (i.take k).length = k := List.length_take_of_le (by omega)
  rw [run_recvVarW_bind, run_recvVarW_bind, sent_recvVarW_bind, sent_recvVarW_bind, fill_of_length hfull,
    fill_of_length hfull]
  exact h _ _ (by rw [List.length_drop]; omega)

theorem indifferent_recvVar {f f' : Bytes → Code α} (hk : k ≤ n) (h : ∀ v, Indifferent t (n - k) (f v) (f' v)) :
    Indifferent t n (recvVar env k >>= f) (recvVar env' k >>= f') := by
  intro i hi
  have hfull : (i.take k).length = k := List.length_take_of_le (by omega)
  rw [run_recvVar_bind, run_recvVar_bind, sent_recvVar_bind, sent_recvVar_bind, fill_of_length hfull,
    fill_of_length hfull]
  exact h _ _ (by rw [List.length_drop]; omega)

theorem indifferent_recvFields (fs : List Field) {f : List Bytes → Code α} :
    Indifferent t (fs.map Field.width).sum (recvFields env fs >>= f) (recvFields env' fs >>= f) := by
  induction fs generalizing env env' f with
  | nil => exact Indifferent.refl _
  | cons a fs ih =>
      rw [recvFields, recvFields, bind_assoc', bind_assoc', List.map_cons, List.sum_cons]
      have hrest : ∀ v : Bytes, Indifferent t (a.width + (fs.map Field.width).sum - a.width)
          ((do let vs ← recvFields (env.var 1) fs; pure (v :: vs)) >>= f)
          ((do let vs ← recvFields (env'.var 1) fs; pure (v :: vs)) >>= f) := by
        intro v
        rw [bind_assoc', bind_assoc', Nat.add_sub_cancel_left]
        exact ih (env.var 1) (env'.var 1)
      unfold Field.get
      cases a.recvW with
      | true => exact indifferent_recvVarW _ _ (Nat.le_add_right _ _) hrest
      | false => exact indifferent_recvVar _ _ (Nat.le_add_right _ _) hrest

/-- **Every relay.** -/
theorem indifferent_relay (dest : Socket) (r : Relay) :
    Indifferent t r.width (relay env dest r) (relay env' dest r) := indifferent_recvFields _ _ _

end Rules

/-! ## Whole packets -/

variable (env env' : Env)

/-- The packets of the client whose handlers read more than what they have received: names and texts with colour
    codes, and a ping. -/
def Server.rememberedIds : List UInt8 := [0x00, 0x0d, 0x11, 43]

/-- The packets of the server whose handlers do: the data and the end of the level, and names. -/
def Client.rememberedIds : List UInt8 := [0x03, 0x04, 0x07, 0x11, 0x21]

/-- **A whole packet of the client**, over any memory. -/
theorem Server.indifferent_dispatch {id : UInt8} {n : Nat} (h : (id, n) ∈ clientPackets)
    (hid : id ∉ Server.rememberedIds) (t : Tunnel) (l : ServerLocals) :
    Indifferent t n (Server.dispatch env id l) (Server.dispatch env' id l) := by
  have hmem : ∀ c : Env → Code Unit, (∀ e, (id, c e) ∈ Server.handlers e) → Indifferent t n (c env) (c env') →
      Indifferent t n (Server.dispatch env id l) (Server.dispatch env' id l) := by
    intro c hc hsame
    rw [Server.dispatch_of_mem (hc env), Server.dispatch_of_mem (hc env')]
    exact hsame.bind fun _ => pure l
  rcases mem_clientPackets h with ⟨r, hr, rfl, rfl⟩ | hspecial
  · exact hmem (fun e => relay e tunnelSock r) (fun e => Server.relay_mem e hr)
      (indifferent_relay env env' tunnelSock r)
  · simp only [Server.specials, List.mem_cons, Prod.mk.injEq, List.not_mem_nil, or_false] at hspecial
    rcases hspecial with ⟨rfl, rfl⟩ | ⟨rfl, rfl⟩ | ⟨rfl, rfl⟩ | ⟨rfl, rfl⟩ | ⟨rfl, rfl⟩ | ⟨rfl, rfl⟩ | ⟨rfl, rfl⟩ |
      ⟨rfl, rfl⟩ | ⟨rfl, rfl⟩
    · exact absurd (by decide) hid
    · refine hmem Server.setBlockClick (fun e => Server.own_mem (by repeat constructor)) ?_
      unfold Server.setBlockClick
      iterate 5 refine indifferent_recvVarW _ _ (by decide) fun _ => ?_
      exact Indifferent.refl _
    · refine hmem Server.posUpdate (fun e => Server.own_mem (by repeat constructor)) ?_
      unfold Server.posUpdate
      iterate 6 refine indifferent_recvVarW _ _ (by decide) fun _ => ?_
      exact Indifferent.refl _
    · exact absurd (by decide) hid
    · refine hmem Server.extInfo (fun e => Server.own_mem (by repeat constructor)) ?_
      unfold Server.extInfo
      iterate 2 refine indifferent_recvVarW _ _ (by decide) fun _ => ?_
      exact Indifferent.refl _
    · exact absurd (by decide) hid
    · refine hmem Server.textHotKey (fun e => Server.own_mem (by repeat constructor)) ?_
      unfold Server.textHotKey
      iterate 4 refine indifferent_recvVarW _ _ (by decide) fun _ => ?_
      exact Indifferent.refl _
    · refine hmem Server.extAddEntity2 (fun e => Server.own_mem (by repeat constructor)) ?_
      unfold Server.extAddEntity2
      refine indifferent_recvVar _ _ (by decide) fun _ => ?_
      iterate 5 refine indifferent_recvVarW _ _ (by decide) fun _ => ?_
      iterate 2 refine indifferent_recvVar _ _ (by decide) fun _ => ?_
      exact Indifferent.refl _
    · exact absurd (by decide) hid

/-- The level begins with its size, or not. -/
theorem Client.indifferent_levelInt (t : Tunnel) :
    Indifferent t (if t.modes.fast then 4 else 0) (Client.levelInt env) (Client.levelInt env') := by
  refine Indifferent.getState_bind ?_
  by_cases hfast : t.negotiated CPE.fastMap = true
  · rw [if_pos hfast, if_pos hfast]
    exact (indifferent_relay env env' serverSock Client.levelInitFast).mono (by simp [Tunnel.modes, hfast]; rfl)
  · rw [if_neg hfast, if_neg hfast]
    exact (indifferent_relay env env' serverSock Client.levelInit).mono (Nat.zero_le _)

/-- A position, with coordinates of either width. -/
theorem Client.indifferent_position (t : Tunnel) (width : Nat) (coord : Bytes → UInt16) :
    Indifferent t (3 * width + 3) (Client.position env width coord) (Client.position env' width coord) := by
  unfold Client.position
  iterate 6 refine indifferent_recvVarW _ _ (by omega) fun _ => ?_
  exact Indifferent.refl _

theorem Client.indifferent_posAndOrientation (t : Tunnel) :
    Indifferent t (if t.modes.wide then 15 else 9) (Client.posAndOrientation env) (Client.posAndOrientation env') := by
  refine Indifferent.getState_bind ?_
  by_cases hwide : t.negotiated CPE.extEntityPos = true
  · rw [if_pos hwide, if_pos hwide]
    exact (Client.indifferent_position env env' t 4 _).mono (by simp [Tunnel.modes, hwide])
  · rw [if_neg hwide, if_neg hwide]
    exact (Client.indifferent_position env env' t 2 _).mono (by simp [Tunnel.modes, hwide])

/-- **A whole packet of the server**, over any memory. -/
theorem Client.indifferent_dispatch {t : Tunnel} {id : UInt8} {n : Nat} (h : (id, n) ∈ serverPackets t.modes)
    (hid : id ∉ Client.rememberedIds) (l : McLocals) :
    Indifferent t n (Client.dispatch env id l) (Client.dispatch env' id l) := by
  have hmem : ∀ c : Env → Code Unit, (∀ e, (id, c e) ∈ Client.handlers e) → Indifferent t n (c env) (c env') →
      Indifferent t n (Client.dispatch env id l) (Client.dispatch env' id l) := by
    intro c hc hsame
    rw [Client.dispatch_of_mem (hc env), Client.dispatch_of_mem (hc env')]
    exact hsame.bind fun _ => pure l
  rcases mem_serverPackets h with ⟨r, hr, rfl, rfl⟩ | hspecial
  · exact hmem (fun e => relay e serverSock r) (fun e => Client.relay_mem e hr)
      (indifferent_relay env env' serverSock r)
  · simp only [Client.specials, List.mem_cons, Prod.mk.injEq, List.not_mem_nil, or_false] at hspecial
    rcases hspecial with ⟨rfl, rfl⟩ | ⟨rfl, rfl⟩ | ⟨rfl, rfl⟩ | ⟨rfl, rfl⟩ | ⟨rfl, rfl⟩ | ⟨rfl, rfl⟩ | ⟨rfl, rfl⟩ |
      ⟨rfl, rfl⟩ | ⟨rfl, rfl⟩ | ⟨rfl, rfl⟩ | ⟨rfl, rfl⟩ | ⟨rfl, rfl⟩ | ⟨rfl, rfl⟩ | ⟨rfl, rfl⟩ | ⟨rfl, rfl⟩ |
      ⟨rfl, rfl⟩ | ⟨rfl, rfl⟩ | ⟨rfl, rfl⟩ | ⟨rfl, rfl⟩
    · show Indifferent t 130 (Client.serverMotd env l) (Client.serverMotd env' l)
      unfold Client.serverMotd
      iterate 3 refine indifferent_recvVarW _ _ (by decide) fun _ => ?_
      exact Indifferent.refl _
    · exact hmem Client.levelInt (fun e => Client.own_mem (by repeat constructor))
        (Client.indifferent_levelInt env env' t)
    · exact absurd (by decide) hid
    · refine hmem Client.setBlockPacket (fun e => Client.own_mem (by repeat constructor)) ?_
      unfold Client.setBlockPacket
      iterate 4 refine indifferent_recvVarW _ _ (by decide) fun _ => ?_
      exact Indifferent.refl _
    · exact absurd (by decide) hid
    · exact hmem Client.posAndOrientation (fun e => Client.own_mem (by repeat constructor))
        (Client.indifferent_posAndOrientation env env' t)
    · refine hmem Client.posOffsetUpdate (fun e => Client.own_mem (by repeat constructor)) ?_
      unfold Client.posOffsetUpdate
      iterate 6 refine indifferent_recvVarW _ _ (by decide) fun _ => ?_
      exact Indifferent.refl _
    · refine hmem Client.posUpdate (fun e => Client.own_mem (by repeat constructor)) ?_
      unfold Client.posUpdate
      iterate 4 refine indifferent_recvVarW _ _ (by decide) fun _ => ?_
      exact Indifferent.refl _
    · refine hmem Client.orientationUpdate (fun e => Client.own_mem (by repeat constructor)) ?_
      unfold Client.orientationUpdate
      iterate 3 refine indifferent_recvVarW _ _ (by decide) fun _ => ?_
      exact Indifferent.refl _
    · refine hmem Client.playerDisconnect (fun e => Client.own_mem (by repeat constructor)) ?_
      unfold Client.playerDisconnect
      refine indifferent_recvVarW _ _ (by decide) fun _ => ?_
      exact Indifferent.refl _
    · show Indifferent t 64 (Client.kick env) (Client.kick env')
      unfold Client.kick
      refine indifferent_recvVarW _ _ (by decide) fun _ => ?_
      exact Indifferent.refl _
    · refine hmem Client.extInfo (fun e => Client.own_mem (by repeat constructor)) ?_
      unfold Client.extInfo
      iterate 2 refine indifferent_recvVarW _ _ (by decide) fun _ => ?_
      exact Indifferent.refl _
    · exact absurd (by decide) hid
    · refine hmem Client.holdThis (fun e => Client.own_mem (by repeat constructor)) ?_
      unfold Client.holdThis
      iterate 2 refine indifferent_recvVar _ _ (by decide) fun _ => ?_
      exact Indifferent.refl _
    · refine hmem Client.extRemovePlayerName (fun e => Client.own_mem (by repeat constructor)) ?_
      unfold Client.extRemovePlayerName
      refine indifferent_recvVarW _ _ (by decide) fun _ => ?_
      exact Indifferent.refl _
    · refine hmem Client.setBlockPermission (fun e => Client.own_mem (by repeat constructor)) ?_
      unfold Client.setBlockPermission
      iterate 3 refine indifferent_recvVarW _ _ (by decide) fun _ => ?_
      exact Indifferent.refl _
    · refine hmem Client.hackcontrol (fun e => Client.own_mem (by repeat constructor)) ?_
      unfold Client.hackcontrol
      iterate 6 refine indifferent_recvVarW _ _ (by decide) fun _ => ?_
      exact Indifferent.refl _
    · exact absurd (by decide) hid
    · refine hmem Client.entityProperty (fun e => Client.own_mem (by repeat constructor)) ?_
      unfold Client.entityProperty
      iterate 3 refine indifferent_recvVarW _ _ (by decide) fun _ => ?_
      exact Indifferent.refl _

/-! ## A turn over two memories -/

/-- In the turn of a thread at `l` that finds `t`, it makes no difference which of two memories earlier packets have
    left. -/
def NoDifference (t : Tunnel) (i : ThreadId) (l : Locals) (input : Bytes) (env env' : Env) : Prop :=
  (round env i l).run input t = (round env' i l).run input t ∧
    (round env i l).sent input t = (round env' i l).sent input t

variable {env env'} {t : Tunnel}

theorem NoDifference.refl (i : ThreadId) (l : Locals) (input : Bytes) : NoDifference t i l input env env := ⟨rfl, rfl⟩

/-- A round over the other memory does the same. -/
theorem NoDifference.alike {i : ThreadId} {l : Locals} {input input' : Bytes} {c : Code Locals} {t' : Tunnel}
    {blur : Tunnel → Tunnel} {seen : Socket × Bytes → Bool} (h : NoDifference t i l input env env')
    (halike : (round env' i l).Alike blur seen input t c input' t') :
    (round env i l).Alike blur seen input t c input' t' := by
  constructor
  · rw [h.1]
    exact halike.result
  · rw [h.1]
    exact halike.state
  · rw [h.2]
    exact halike.sent

/-- Of a whole packet of the client. -/
theorem noDifference_client {id : UInt8} {n : Nat} (h : (id, n) ∈ clientPackets) (hid : id ∉ Server.rememberedIds)
    {payload : Bytes} (hlen : n ≤ payload.length) (l : Locals) :
    NoDifference t .tunnelServer l (id :: payload) env env' := by
  obtain ⟨l, rfl⟩ | hl : (∃ l', l = .tunnelServer l') ∨ ∀ e, round e .tunnelServer l = pure l := by
    cases l with
    | tunnelServer l => exact Or.inl ⟨l, rfl⟩
    | _ => exact Or.inr fun _ => rfl
  case inr =>
    unfold NoDifference
    rw [hl, hl]
    exact ⟨rfl, rfl⟩
  obtain ⟨hrun, hsent⟩ := Server.indifferent_dispatch env env' h hid t l payload hlen
  have hround : ∀ e, round e .tunnelServer (.tunnelServer l) =
      (do let l' ← tunnelServer e l; pure (.tunnelServer l')) :=
    fun _ => rfl
  unfold NoDifference
  rw [hround, hround, run_bind_pure, run_bind_pure, sent_bind_pure, sent_bind_pure, tunnelServer, tunnelServer,
    run_recv_id env Prog.exit (fun id => Server.dispatch env id l),
    run_recv_id env' Prog.exit (fun id => Server.dispatch env' id l),
    sent_recv_id env Prog.exit (fun id => Server.dispatch env id l),
    sent_recv_id env' Prog.exit (fun id => Server.dispatch env' id l), hrun, hsent]
  exact ⟨rfl, rfl⟩

/-- Of a whole packet of the server. -/
theorem noDifference_server {id : UInt8} {n : Nat} (h : (id, n) ∈ serverPackets t.modes)
    (hid : id ∉ Client.rememberedIds) {payload : Bytes} (hlen : n ≤ payload.length) (l : Locals) :
    NoDifference t .mcConnect l (id :: payload) env env' := by
  obtain ⟨l, rfl⟩ | hl : (∃ l', l = .mcConnect l') ∨ ∀ e e', round e .mcConnect l = round e' .mcConnect l := by
    cases l with
    | mcConnect l => exact Or.inl ⟨l, rfl⟩
    | _ => exact Or.inr fun _ _ => rfl
  case inr =>
    unfold NoDifference
    rw [hl env env']
    exact ⟨rfl, rfl⟩
  obtain ⟨hrun, hsent⟩ := Client.indifferent_dispatch env env' h hid l payload hlen
  have hround : ∀ e, round e .mcConnect (.mcConnect l) = (do let l' ← mcConnect e l; pure (.mcConnect l')) :=
    fun _ => rfl
  unfold NoDifference
  rw [hround, hround, run_bind_pure, run_bind_pure, sent_bind_pure, sent_bind_pure, mcConnect, mcConnect,
    run_recv_id env Client.disconnected (fun id => Client.dispatch env id l),
    run_recv_id env' Client.disconnected (fun id => Client.dispatch env' id l),
    sent_recv_id env Client.disconnected (fun id => Client.dispatch env id l),
    sent_recv_id env' Client.disconnected (fun id => Client.dispatch env' id l), hrun, hsent]
  exact ⟨rfl, rfl⟩

end LavaTunnel
