import LavaTunnel.Correctness.Dispatch

/-!
# `LavaTunnel.Correctness.Runs` — runs of `mcConnect` on complete packets

`ServerRun` is such a run together with what makes it one, and `found` and `after` are the states before and
after each of its rounds. `after_succ` says what a round does, so that the theorems about runs need not look at
the code again: they are inductions over `received`.
-/

namespace LavaTunnel

open Wire Wire.Prog

namespace Client

/-- Every packet of the run is complete in the modes of its moment. -/
def CompleteRun (env : Env) : List (Tunnel → Tunnel) → McLocals → List Packet → Tunnel → Prop
  | f :: fs, l, p :: ps, t => FromServer (f t).modes p ∧ ∀ l' t' out,
      (dispatch env p.1 l).Takes p.2 (f t) (some l') t' out → CompleteRun env fs l' ps t'
  | _, _, _, _ => True

/-- The state after `k` rounds. -/
def stateAfter (env : Env) (fs : List (Tunnel → Tunnel)) (l : McLocals) (i : Bytes) (t : Tunnel) (k : Nat) :
    Tunnel :=
  ((rounds (mcConnect env) (fs.take k) l).run i t).state

/-- The states of a run are those of the run behind its first round. -/
theorem stateAfter_succ {env : Env} {f : Tunnel → Tunnel} {fs : List (Tunnel → Tunnel)} {l l' : McLocals}
    {p : Packet} {ps : List Packet} {rest : Bytes} {t t' : Tunnel} {out : List (Socket × Bytes)}
    (h : (mcConnect env l).Takes (p.1 :: p.2) (f t) (some l') t' out) (k : Nat) :
    stateAfter env (f :: fs) l (encode (p :: ps) ++ rest) t (k + 1) =
      stateAfter env fs l' (encode ps ++ rest) t' k := by
  have hencode : encode (p :: ps) ++ rest = (p.1 :: p.2) ++ (encode ps ++ rest) := by simp
  unfold stateAfter
  rw [hencode, List.take_succ_cons, run_rounds_takes h]
  rfl

end Client

/-- A run of `mcConnect`: the packets, what the other threads do before each of them, and where it starts. Every
    packet is complete, and a kick can only be the last one. -/
structure ServerRun (env : Env) where
  packets : List Packet
  others : List (Tunnel → Tunnel)
  locals : McLocals := {}
  state : Tunnel
  rest : Bytes := []
  length_others : others.length = packets.length
  kick_last : ∀ p ∈ packets.dropLast, p.1 ≠ 0x0e
  complete : Client.CompleteRun env others locals packets state
  zlib : ∀ p ∈ packets, p.1 = 0x04 → env.zlib.EndDocumented

namespace Client

/-- Packets that announce nothing are complete if they are in the modes of the start. -/
theorem completeRun_of_modes {env : Env} (hz : env.zlib.EndDocumented) {ps : List Packet} {t : Tunnel}
    (h : ∀ p ∈ ps, FromServer t.modes p ∧ p.1 ≠ 0x11) (l : McLocals) :
    CompleteRun env (List.replicate ps.length id) l ps t := by
  induction ps generalizing l t with
  | nil => trivial
  | cons p ps ih =>
      obtain ⟨hp, hid⟩ := h p List.mem_cons_self
      refine ⟨hp, fun l' t' out htakes => ih (fun q hq => ?_) l'⟩
      obtain ⟨r, out', hreceived, -⟩ := receives env t l (fun _ => hz) hp
      have ht' : t' = received env p t := congrArg Outcome.state ((htakes []).symm.trans (hreceived []))
      obtain ⟨hclient, hserver, -⟩ := received_frame env p t
      rw [announced, if_neg hid] at hclient
      have hmodes : t'.modes = t.modes := by
        rw [ht', Tunnel.modes, Tunnel.negotiated, Tunnel.negotiated, hclient, hserver]
        rfl
      rw [hmodes]
      exact h q (List.mem_cons_of_mem p hq)

/-- The bytes that the client has got after `k` rounds. -/
def relayedAfter (env : Env) (fs : List (Tunnel → Tunnel)) (l : McLocals) (i : Bytes) (t : Tunnel) (k : Nat) :
    Bytes :=
  stream serverSock ((rounds (mcConnect env) (fs.take k) l).run i t).out

/-- The packet of a run is taken in this way: the state, and what is added for the client. -/
def Round (env : Env) (p : Packet) (t t' : Tunnel) (before after : Bytes) : Prop :=
  FromServer t.modes p ∧ t' = received env p t ∧
    ∃ l r out, (dispatch env p.1 l).Takes p.2 t r t' out ∧ after = before ++ stream serverSock out

/-- **Every round of a run on complete packets takes its packet.** -/
theorem round_of_run {env : Env} {ps : List Packet} (hz : ∀ p ∈ ps, p.1 = 0x04 → env.zlib.EndDocumented)
    (hkick : ∀ p ∈ ps.dropLast, p.1 ≠ 0x0e) {fs : List (Tunnel → Tunnel)} (hlen : fs.length = ps.length)
    {l : McLocals} {t : Tunnel} (hps : CompleteRun env fs l ps t) (rest : Bytes) {k : Nat} (hk : k < ps.length) :
    Round env ps[k] ((fs.getD k id) (stateAfter env fs l (encode ps ++ rest) t k))
      (stateAfter env fs l (encode ps ++ rest) t (k + 1)) (relayedAfter env fs l (encode ps ++ rest) t k)
      (relayedAfter env fs l (encode ps ++ rest) t (k + 1)) := by
  -- on the number of rounds before the one in question: each of them takes its packet and does not end the run
  induction k generalizing ps fs l t with
  | zero =>
      cases ps with
      | nil => exact absurd hk (by simp)
      | cons p ps =>
          obtain ⟨f, fs, rfl⟩ := List.exists_cons_of_length_eq_add_one hlen
          have hp := hps.1
          obtain ⟨r, out, htakes, -⟩ := receives env (f t) l (hz p List.mem_cons_self) hp
          have hrun : (rounds (mcConnect env) [f] l).run (encode (p :: ps) ++ rest) t =
              ⟨r, encode ps ++ rest, received env p (f t), out⟩ := by
            rw [run_rounds_one, show encode (p :: ps) ++ rest = (p.1 :: p.2) ++ (encode ps ++ rest) by simp]
            exact takes_mcConnect htakes (encode ps ++ rest)
          have hstate : stateAfter env (f :: fs) l (encode (p :: ps) ++ rest) t (0 + 1) = received env p (f t) :=
            congrArg Outcome.state hrun
          have hout : relayedAfter env (f :: fs) l (encode (p :: ps) ++ rest) t (0 + 1) = stream serverSock out :=
            congrArg (fun o : Outcome Tunnel Socket Bytes McLocals => stream serverSock o.out) hrun
          rw [hstate, hout]
          exact ⟨hp, rfl, l, r, out, htakes, rfl⟩
  | succ k ih =>
      cases ps with
      | nil => exact absurd hk (by simp)
      | cons p ps =>
          obtain ⟨f, fs, rfl⟩ := List.exists_cons_of_length_eq_add_one hlen
          obtain ⟨hp, hnext⟩ := hps
          have hk' : k < ps.length := by simpa using hk
          have he : p.1 ≠ 0x0e := by
            intro he
            obtain rfl := eq_nil_of_kick hkick he
            exact absurd hk' (by simp)
          obtain ⟨r, out, htakes, hends⟩ := receives env (f t) l (hz p List.mem_cons_self) hp
          obtain ⟨l', rfl⟩ := Option.ne_none_iff_exists'.mp (fun hnone => he (hends.mp hnone))
          have hround := takes_mcConnect htakes
          have hshift : ∀ j, relayedAfter env (f :: fs) l (encode (p :: ps) ++ rest) t (j + 1) =
              stream serverSock out ++ relayedAfter env fs l' (encode ps ++ rest) (received env p (f t)) j := by
            intro j
            unfold relayedAfter
            rw [show encode (p :: ps) ++ rest = (p.1 :: p.2) ++ (encode ps ++ rest) by simp, List.take_succ_cons,
              run_rounds_takes hround, Outcome.after_out, stream_append]
          obtain ⟨hfrom, hstate, l₀, r₀, out₀, htakes₀, hout⟩ :=
            ih (fun q hq => hz q (List.mem_cons_of_mem p hq)) (kick_last_tail hkick) (by simpa using hlen)
              (hnext l' _ out htakes) hk'
          rw [List.getD_cons_succ, List.getElem_cons_succ, stateAfter_succ hround, stateAfter_succ hround, hshift,
            hshift]
          refine ⟨hfrom, hstate, l₀, r₀, out₀, htakes₀, ?_⟩
          rw [hout, List.append_assoc]

end Client

namespace ServerRun

/-- A run with nobody else at work, of packets that announce nothing. -/
def alone (env : Env) (hz : env.zlib.EndDocumented) (ps : List Packet) (t : Tunnel)
    (hkick : ∀ p ∈ ps.dropLast, p.1 ≠ 0x0e) (h : ∀ p ∈ ps, FromServer t.modes p ∧ p.1 ≠ 0x11) :
    ServerRun env where
  packets := ps
  others := List.replicate ps.length id
  state := t
  length_others := List.length_replicate
  kick_last := hkick
  complete := Client.completeRun_of_modes hz h {}
  zlib := fun _ _ _ => hz

/-- The zlib of the default environment ends its streams. -/
theorem endDocumented_default : ({} : Env).zlib.EndDocumented := fun _ _ _ => Or.inl rfl

variable {env : Env} (r : ServerRun env)

/-- The bytes of the run. -/
def input : Bytes := encode r.packets ++ r.rest

/-- The state after `k` rounds. -/
def after (k : Nat) : Tunnel := Client.stateAfter env r.others r.locals r.input r.state k

/-- The state that packet `k` finds: the other threads have done what they do. -/
def found (k : Nat) : Tunnel := (r.others.getD k id) (r.after k)

/-- What the client has got after `k` rounds. -/
def relayed (k : Nat) : Bytes := Client.relayedAfter env r.others r.locals r.input r.state k

@[simp] theorem after_zero : r.after 0 = r.state := rfl

theorem round {k : Nat} (hk : k < r.packets.length) :
    Client.Round env r.packets[k] (r.found k) (r.after (k + 1)) (r.relayed k) (r.relayed (k + 1)) :=
  Client.round_of_run r.zlib r.kick_last r.length_others r.complete r.rest hk

/-- **What a round does to the state.** -/
theorem after_succ {k : Nat} (hk : k < r.packets.length) :
    r.after (k + 1) = Client.received env r.packets[k] (r.found k) := (r.round hk).2.1

/-- What a round writes to the client is what its handler writes. -/
theorem relayed_of_handler {k : Nat} (hk : k < r.packets.length) {id : UInt8} {payload : Bytes}
    (hq : r.packets[k] = (id, payload)) {c : Code Unit} (hc : (id, c) ∈ Client.handlers env) {t' : Tunnel}
    {out : List (Socket × Bytes)} (h : c.Takes payload (r.found k) (some ()) t' out) :
    r.relayed (k + 1) = r.relayed k ++ stream serverSock out := by
  obtain ⟨-, -, l, res, out', htakes, hrelayed⟩ := r.round hk
  rw [hq] at htakes
  have hown := Client.takes_dispatch hc l h
  have heq : out' = out := congrArg Outcome.out ((htakes []).symm.trans (hown []))
  rw [hrelayed, heq]

/-- The other threads leave alone what each of them leaves alone. -/
theorem found_of_kept {κ : Type} {kept : Tunnel → κ} (h : ∀ f ∈ r.others, ∀ t, kept (f t) = kept t) (k : Nat) :
    kept (r.found k) = kept (r.after k) := by
  unfold found
  cases hk : r.others[k]? with
  | none => rw [List.getD_eq_getElem?_getD, hk, Option.getD_none, id_eq]
  | some f =>
      rw [List.getD_eq_getElem?_getD, hk, Option.getD_some]
      exact h f (List.mem_of_getElem? hk) _

/-- **The invariant rule of a run.** What holds at the start, survives the other threads, and survives every
    packet of the run, holds after every round. -/
theorem invariant (inv : Nat → Tunnel → Prop) (hstart : inv 0 r.state)
    (hothers : ∀ k, inv k (r.after k) → inv k (r.found k))
    (hstep : ∀ k (hk : k < r.packets.length), inv k (r.found k) →
      inv (k + 1) (Client.received env r.packets[k] (r.found k))) {k : Nat} (hk : k ≤ r.packets.length) :
    inv k (r.after k) := by
  induction k with
  | zero => exact hstart
  | succ k ih =>
      have hlt : k < r.packets.length := hk
      rw [r.after_succ hlt]
      exact hstep k hlt (hothers k (ih (Nat.le_of_lt hlt)))

/-- **A view that follows the packets is a fold over them.** -/
theorem view_eq_foldl {α : Type} (view : Tunnel → α) (step : α → Packet → α)
    (hothers : ∀ f ∈ r.others, ∀ t, view (f t) = view t)
    (hstep : ∀ q ∈ r.packets, ∀ t, FromServer t.modes q → view (Client.received env q t) = step (view t) q)
    {k : Nat} (hk : k ≤ r.packets.length) : view (r.after k) = (r.packets.take k).foldl step (view r.state) := by
  induction k with
  | zero => rfl
  | succ k ih =>
      have hlt : k < r.packets.length := hk
      rw [r.after_succ hlt, hstep _ (List.getElem_mem hlt) _ (r.round hlt).1, r.found_of_kept hothers,
        ih (Nat.le_of_lt hlt), List.take_succ_eq_append_getElem hlt, List.foldl_append]
      rfl

end ServerRun

end LavaTunnel
