import LavaTunnel.Correctness.SplitFree
import LavaTunnel.Wire.Parse

/-!
# `LavaTunnel.Correctness.Parse` — what stands before an id

Neither of the two loops has a default case: a byte that no handler knows is skipped alone, and the next byte
is read as an id. Otherwise an id is the first byte of the stream or stands behind a complete packet, as long as
the segments do not cut one of the fields that a plain `recv` receives.
-/

namespace LavaTunnel

open Wire Wire.Prog

/-! ## `mcConnect` -/

namespace Client

/-- The ids that `mcConnect` has a branch for. -/
def knownIds : List UInt8 := (serverPackets ⟨false, false⟩).map Prod.fst ++ [0x03]

/-- The packets that `mcConnect` is written for. -/
def grammar : Grammar Tunnel McLocals where
  known _ id := id ∈ knownIds
  complete t _ id payload := FromServer t.modes (id, payload)
  sees := seesSegments

variable {env : Env} {id : UInt8} {t : Tunnel}

/-- An id without a handler does nothing. -/
theorem dispatch_unknown (h : id ∉ knownIds) (l : McLocals) : dispatch env id l = pure l := by
  have hids : ∀ e ∈ handlers env, e.1 ∈ knownIds := by
    intro e he
    have hmem : e.1 ∈ (handlers env).map Prod.fst := List.mem_map_of_mem he
    rw [ids_handlers] at hmem
    exact (show ∀ id ∈ _, id ∈ knownIds by decide +kernel) e.1 hmem
  have hnone : (handlers env).lookup id = none := by
    cases hlookup : (handlers env).lookup id with
    | none => rfl
    | some c => exact absurd (hids _ (mem_of_lookup hlookup)) h
  have h0 : id ≠ 0x00 := fun heq => h (heq ▸ by decide)
  have h4 : id ≠ 0x04 := fun heq => h (heq ▸ by decide)
  have he : id ≠ 0x0e := fun heq => h (heq ▸ by decide)
  unfold dispatch
  rw [if_neg h0, if_neg h4, if_neg he, hnone]

/-- Every complete packet is taken, whatever comes of it. -/
theorem takes_complete (env : Env) (l : McLocals) {payload : Bytes} (hp : FromServer t.modes (id, payload)) :
    ∃ r t' out, (dispatch env id l).Takes payload t r t' out := by
  by_cases herror : id = 0x04 ∧ ZlibError env (resized payload t)
  · obtain ⟨rfl, herror⟩ := herror
    have hlen : payload.length = 6 := by
      have hmem : ((0x04 : UInt8), payload.length) ∈ serverPackets t.modes := hp
      simpa [serverPackets] using hmem
    exact ⟨_, _, _, takes_levelFinal_error env t l hlen herror⟩
  · by_cases hfinal : id = 0x04
    · subst hfinal
      have hlen : payload.length = 6 := by
        have hmem : ((0x04 : UInt8), payload.length) ∈ serverPackets t.modes := hp
        simpa [serverPackets] using hmem
      exact ⟨_, _, _, takes_levelFinal env t l hlen (fun h => herror ⟨rfl, h⟩)⟩
    · obtain ⟨r, out, htakes, -⟩ := receives env t l (fun h => absurd h hfinal) hp
      exact ⟨r, _, out, htakes⟩

/-- A piece of level data with a negative length ends the program. -/
theorem run_levelData_negative {i : Bytes} (hlen : 2 ≤ i.length) (h : chunkLength i < 0) :
    ((levelData env).run i t).result = none := by
  have hfill : env.fill 2 (i.take 2) = i.take 2 := fill_of_length (by simpa using hlen)
  unfold levelData
  rw [run_recvVarW_bind, hfill]
  have hneg : (host (i.take 2)).toInt16.toInt < 0 := h
  dsimp only
  rw [if_pos hneg]
  rfl

/-- A level chunk, from a stream that is long enough. -/
theorem levelChunk_take {i : Bytes} (hpos : 0 ≤ chunkLength i) (hlen : 3 + max 1024 (chunkLength i) ≤ i.length) :
    LevelChunk (i.take (3 + max 1024 (chunkLength i)).toNat) := by
  have htake : chunkLength (i.take (3 + max 1024 (chunkLength i)).toNat) = chunkLength i := by
    unfold chunkLength
    rw [List.take_take, min_eq_left (by omega)]
  refine ⟨by rwa [htake], ?_⟩
  rw [htake, List.length_take]
  omega

/-- **Every stream behind a known id goes on to a complete packet**, but for level data of a negative length. -/
theorem complete_append (m : Modes) (hknown : id ∈ knownIds) (rest : Bytes) :
    ∃ more payload tail : Bytes, rest ++ more = payload ++ tail ∧
      (FromServer m (id, payload) ∨ id = 0x03 ∧ 2 ≤ (rest ++ more).length ∧ chunkLength (rest ++ more) < 0) := by
  -- a piece of level data announces its own length, every other length is in the table
  by_cases h3 : id = 0x03
  · have hlen : 40000 ≤ (rest ++ List.replicate 40000 0 : Bytes).length := by
      rw [List.length_append, List.length_replicate]
      omega
    have hmax : chunkLength (rest ++ List.replicate 40000 0) < 32768 := Int16.toInt_lt _
    by_cases hneg : chunkLength (rest ++ List.replicate 40000 0) < 0
    · exact ⟨List.replicate 40000 0, [], _, rfl, Or.inr ⟨h3, by omega, hneg⟩⟩
    · have hchunk := levelChunk_take (i := rest ++ List.replicate 40000 0) (by omega) (by omega)
      have hcomplete : FromServer m (id, _) := (if_pos h3).mpr hchunk
      exact ⟨List.replicate 40000 0, _, _, (List.take_append_drop _ _).symm, Or.inl hcomplete⟩
  · obtain ⟨n, hn⟩ : ∃ n, (id, n) ∈ serverPackets m := by
      have hall : ∀ fast wide, ∀ id ∈ knownIds, id ≠ 0x03 → id ∈ (serverPackets ⟨fast, wide⟩).map Prod.fst := by
        decide +kernel
      obtain ⟨e, he, rfl⟩ := List.mem_map.mp (hall m.fast m.wide id hknown h3)
      exact ⟨e.2, he⟩
    refine ⟨List.replicate n 0, _, _, (List.take_append_drop n _).symm, Or.inl ?_⟩
    unfold FromServer
    rw [if_neg h3, List.length_take, List.length_append, List.length_replicate, min_eq_left (by omega)]
    exact hn

/-- **A round of `mcConnect`** reads a complete packet, or all that is left. -/
theorem takes_round {l : McLocals} {rest : Bytes} (hknown : id ∈ knownIds)
    (hresult : ((dispatch env id l).run rest t).result ≠ none) (h : ((dispatch env id l).run rest t).input ≠ []) :
    ∃ payload, rest = payload ++ ((dispatch env id l).run rest t).input ∧ FromServer t.modes (id, payload) := by
  obtain ⟨more, payload, tail, heq, hcomplete | ⟨rfl, hlen, hneg⟩⟩ := complete_append t.modes hknown rest
  · obtain ⟨r, t', out, htakes⟩ := takes_complete env l hcomplete
    exact ⟨payload, htakes.of_leftover heq h, hcomplete⟩
  · -- the same round on the longer stream ends the program
    have hmore := congrArg Outcome.result (run_more _ h more)
    have hlevel : (0x03, levelData env) ∈ handlers env := own_mem (by repeat constructor)
    rw [dispatch_of_mem hlevel, run_bind, andThen, run_levelData_negative hlen hneg] at hmore
    rw [dispatch_of_mem hlevel] at hresult
    exact absurd hmore.symm hresult

end Client

theorem rounds_mcConnect (env : Env) : Client.grammar.Rounds (mcConnect env) where
  takes l t id rest hknown hresult h := by
    rw [mcConnect, run_recv_id env Client.disconnected (fun id => Client.dispatch env id l)] at hresult h ⊢
    exact Client.takes_round hknown hresult h
  skips l t id rest i hi hunknown := by
    obtain ⟨i', hi', hround⟩ := run_round env Client.disconnected (fun id => Client.dispatch env id l) t hi
    rw [mcConnect, hround, Client.dispatch_unknown hunknown, run_pure, Outcome.onBytes, hi']
  whole l t id rest i hi hsees := by
    obtain ⟨i', hi', hround⟩ := run_round env Client.disconnected (fun id => Client.dispatch env id l) t hi
    rw [mcConnect, hround, run_recv_id env Client.disconnected (fun id => Client.dispatch env id l), ← hi']
    exact Client.segFree_dispatch env hsees l _ i' t
  ends l t i hi := by
    obtain ⟨t', out, hends⟩ := Client.endsAnywhere_mcConnect env l t
    obtain ⟨i', -, hrun⟩ := hends _ i hi
    exact congrArg Outcome.result hrun

/-! ## `tunnelServer` -/

namespace Server

/-- The ids that `tunnelServer` has a branch for. -/
def knownIds : List UInt8 := clientPackets.map Prod.fst

/-- The packets that `tunnelServer` is written for. Its branch for a login is taken once. -/
def grammar : Grammar Tunnel ServerLocals where
  known l id := id ∈ knownIds ∧ (id = 0x00 → l.fucked = false)
  complete _ _ id payload := FromClient (id, payload)
  sees := seesSegments

variable {env : Env} {id : UInt8} {t : Tunnel} {l : ServerLocals}

/-- An id without a handler does nothing. -/
theorem dispatch_unknown (h : ¬ grammar.known l id) : dispatch env id l = pure l := by
  have hids : ∀ e ∈ handlers env, e.1 ∈ knownIds ∧ e.1 ≠ 0x00 := by
    intro e he
    have hmem : e.1 ∈ (handlers env).map Prod.fst := List.mem_map_of_mem he
    rw [ids_handlers] at hmem
    exact (show ∀ id ∈ _, id ∈ knownIds ∧ id ≠ 0x00 by decide +kernel) e.1 hmem
  have hnone : (handlers env).lookup id = none := by
    cases hlookup : (handlers env).lookup id with
    | none => rfl
    | some c =>
        obtain ⟨hmem, hne⟩ := hids _ (mem_of_lookup hlookup)
        exact absurd ⟨hmem, fun h0 => absurd h0 hne⟩ h
  have hlogin : ¬ (id = 0x00 ∧ l.fucked = false) := by
    rintro ⟨rfl, hl⟩
    exact h ⟨by decide, fun _ => hl⟩
  unfold dispatch
  rw [if_neg hlogin, hnone]

/-- **A round of `tunnelServer`** reads a complete packet, or all that is left. -/
theorem takes_round {rest : Bytes} (hknown : grammar.known l id)
    (h : ((dispatch env id l).run rest t).input ≠ []) :
    ∃ payload, rest = payload ++ ((dispatch env id l).run rest t).input ∧ FromClient (id, payload) := by
  obtain ⟨e, he, rfl⟩ := List.mem_map.mp hknown.1
  have hlen : ((rest ++ List.replicate e.2 0).take e.2).length = e.2 := by simp
  have hp : FromClient (e.1, (rest ++ List.replicate e.2 0).take e.2) := by
    unfold FromClient
    rw [hlen]
    exact he
  obtain ⟨r, t', out, htakes, -⟩ := takesPacket env t hp hknown.2
  exact ⟨_, htakes.of_leftover (List.take_append_drop e.2 _).symm h, hp⟩

end Server

theorem rounds_tunnelServer (env : Env) : Server.grammar.Rounds (tunnelServer env) where
  takes l t id rest hknown _ h := by
    rw [tunnelServer, run_recv_id env Prog.exit (fun id => Server.dispatch env id l)] at h ⊢
    exact Server.takes_round hknown h
  skips l t id rest i hi hunknown := by
    obtain ⟨i', hi', hround⟩ := run_round env Prog.exit (fun id => Server.dispatch env id l) t hi
    rw [tunnelServer, hround, Server.dispatch_unknown hunknown, run_pure, Outcome.onBytes, hi']
  whole l t id rest i hi hsees := by
    obtain ⟨i', hi', hround⟩ := run_round env Prog.exit (fun id => Server.dispatch env id l) t hi
    rw [tunnelServer, hround, run_recv_id env Prog.exit (fun id => Server.dispatch env id l), ← hi']
    exact Server.segFree_dispatch env hsees l _ i' t
  ends l t i hi := by
    obtain ⟨t', out, hends⟩ := Server.endsAnywhere_tunnelServer env l t
    obtain ⟨i', -, hrun⟩ := hends _ i hi
    exact congrArg Outcome.result hrun

/-! ## The run -/

/-- **The loops parse their streams**, in any segments and with the other threads at work. -/
theorem loops_parse (env : Env) (T : Type) [Transport T] [Delivers T] (fs : List (Tunnel → Tunnel)) (i : T)
    (t : Tunnel) :
    (∀ l, Client.grammar.Parses (mcConnect env) fs l i t) ∧
      ∀ l, Server.grammar.Parses (tunnelServer env) fs l i t :=
  ⟨fun l => (rounds_mcConnect env).parses fs l i t, fun l => (rounds_tunnelServer env).parses fs l i t⟩

/-- The ping behind the unknown 0xff is dispatched, and passed on. -/
theorem unknown_id_resumes : ¬ ∀ (env : Env) (fs : List (Tunnel → Tunnel)) (l : McLocals) (i : Bytes) (t : Tunnel)
    (k : Nat) (hk : k < fs.length) (l' : McLocals) (id : UInt8) (rest : Bytes),
    ReadsId (moment (mcConnect env) fs l i t (k + 1)) l' id rest → ∃ l₀ u payload,
      ReadsId (moment (mcConnect env) fs l i t k) l₀ u (payload ++ id :: rest) ∧ Client.grammar.known l₀ u ∧
        Client.grammar.complete (fs[k] (moment (mcConnect env) fs l i t k).state) l₀ u payload := by
  intro hall
  have hread : ReadsId (moment (mcConnect {}) [id] {} ([0xff, 0x01] : Bytes) {} 1) {} 0x01 [] := ⟨rfl, rfl⟩
  obtain ⟨l₀, u, payload, hfirst, hknown, -⟩ := hall {} [id] {} [0xff, 0x01] {} 0 (by decide) {} 0x01 [] hread
  have hbytes : [0xff, 0x01] = u :: (payload ++ [0x01]) := hfirst.bytes
  obtain rfl : 0xff = u := (List.cons.inj hbytes).1
  exact absurd (show (0xff : UInt8) ∈ Client.knownIds from hknown) (by decide)

end LavaTunnel
