import LavaTunnel.Correctness.Segmentation

/-!
# `LavaTunnel.Correctness.SplitFree` — which streams hide their segments

The two dispatch loops over a stream of complete packets: however the transport cuts the stream, the run is
the same, just if none of the packets sees the segments. A kick ends `mcConnect`, so what comes behind it
does not count.
-/

namespace LavaTunnel

open Wire Wire.Prog

/-! ## A packet that sees the segments -/

/-- With some contents of the uninitialised variables, a relay with a plain field of several bytes writes
    other bytes when its packet comes in single bytes. -/
theorem relay_differ (dest : Socket) {r : Relay} (hbad : ∃ f ∈ r.layout, ¬ f.Safe) {payload : Bytes}
    (h : payload.length = r.width) : ∃ b : UInt8, ∀ env : Env, (∀ j i, env.junk j i = b) → ∀ (i : Bytes) (t : Tunnel),
      Differ dest ((relay env dest r).run (payload ++ i) t).out
        ((relay env dest r).run (⟨payload ++ i⟩ : Drip) t).out := by
  -- in the dripped run one byte of an unsafe field is junk; the junk is chosen to be another byte
  obtain ⟨k, hk, hdrip⟩ := run_relay_drip hbad
  have hlt : k < payload.length := by omega
  refine ⟨payload[k] + 1, fun env hb i t => ?_⟩
  obtain ⟨out, htakes, hout⟩ := takes_relay env dest r h t
  obtain ⟨i', out', hrun', hout'⟩ := hdrip env _ hb dest payload h i t
  rw [htakes i, hrun']
  refine ⟨k + 1, payload[k], payload[k] + 1, ?_, hout', ?_⟩
  · show (stream dest out)[k + 1]? = some payload[k]
    rw [hout, List.getElem?_cons_succ, List.getElem?_eq_getElem hlt]
  · intro heq
    have hnat := congrArg UInt8.toNat heq
    rw [UInt8.toNat_add] at hnat
    have hone : UInt8.toNat 1 = 1 := rfl
    have hlt := payload[k].toNat_lt
    omega

/-- The same environment with other contents of the uninitialised variables. -/
def Env.withJunk (env : Env) (junk : Nat → Nat → UInt8) : Env := { env with junk := junk }

/-- A round whose handler is a relay. -/
theorem differ_round (env : Env) {dest : Socket} {r : Relay} {α : Type} (gone : Code α)
    (dispatch : UInt8 → Code α) {a : α} (hdispatch : dispatch r.id = (do relay env dest r; pure a)) {bs : Bytes}
    {t : Tunnel} (h : Differ dest ((relay env dest r).run bs t).out
      ((relay env dest r).run (⟨bs⟩ : Drip) t).out) :
    Differ dest
      ((do let r ← recvW 1
           if r.1 < 1 then gone else dispatch (byte (env.fill 1 r.2))).run (r.id :: bs) t).out
      ((do let r ← recvW 1
           if r.1 < 1 then gone else dispatch (byte (env.fill 1 r.2))).run (⟨r.id :: bs⟩ : Drip) t).out := by
  obtain ⟨i, hi, hrun⟩ := run_round env gone dispatch t (i := r.id :: bs) rfl
  obtain ⟨⟨i'⟩, hi', hrun'⟩ := run_round env gone dispatch t (i := (⟨r.id :: bs⟩ : Drip)) rfl
  obtain rfl : i = bs := hi
  obtain rfl : i' = i := hi'
  rw [hrun, hrun', hdispatch, run_bind_pure, run_bind_pure]
  exact h

/-! ## `mcConnect` -/

namespace Client

/-- The packets up to a kick. -/
def beforeKick (ps : List Packet) : List Packet := ps.takeWhile (fun p => p.1 ≠ 0x0e)

theorem beforeKick_cons {p : Packet} (hp : p.1 ≠ 0x0e) (ps : List Packet) :
    beforeKick (p :: ps) = p :: beforeKick ps := List.takeWhile_cons_of_pos (by simpa using hp)

theorem takesAnywhere_mcConnect {env : Env} {p : Packet} (hp : p.1 ∉ seesSegments) {l : McLocals}
    {t t' : Tunnel} {r : Option McLocals} {out : List (Socket × Bytes)}
    (h : (dispatch env p.1 l).Takes p.2 t r t' out) :
    (mcConnect env l).TakesAnywhere (p.1 :: p.2) t r t' out :=
  takesAnywhere_round _ _ (fun id => dispatch env id l) _ ((segFree_dispatch env hp l).takesAnywhere h)

theorem takes_disconnected (t : Tunnel) : disconnected.Takes [] t none t
    (written serverSock [.send [0x0e], .sendW (List.replicate 64 32)]) := by
  intro rest
  rw [disconnected, run_packet_bind, run_exit]
  simp [Outcome.after]

theorem endsAnywhere_mcConnect (env : Env) (l : McLocals) (t : Tunnel) :
    (mcConnect env l).EndsAnywhere t :=
  endsAnywhere_round _ _ (fun id => dispatch env id l) _ segFree_disconnected
    (takes_disconnected t)

theorem steady_mcConnect (env : Env) (hz : env.zlib.EndDocumented) {ps : List Packet}
    (hgood : ∀ p ∈ beforeKick ps, p.1 ∉ seesSegments) {l : McLocals} {t : Tunnel}
    (hps : Complete env t.cpeServer t.cpeClient ps) :
    Steady (mcConnect env) (ps.map (fun p => p.1 :: p.2)) l t := by
  induction ps generalizing l t with
  | nil => exact endsAnywhere_mcConnect env l t
  | cons p ps ih =>
      obtain ⟨r, t', out, htakes, hkick, hclient, hserver, -⟩ := takesPacket env hz t l hps.1
      by_cases he : p.1 = 0x0e
      · refine ⟨r, t', out, takesAnywhere_mcConnect (by rw [he]; decide) htakes, fun l' hl' => ?_⟩
        rw [hkick.mpr he] at hl'
        exact absurd hl' (by simp)
      · rw [beforeKick_cons he] at hgood
        refine ⟨r, t', out, takesAnywhere_mcConnect (hgood p List.mem_cons_self) htakes, fun l' _ => ?_⟩
        refine ih (fun q hq => hgood q (List.mem_cons_of_mem p hq)) ?_
        rw [hclient, hserver]
        exact hps.2

/-- What an entry announces does not depend on uninitialised variables. -/
theorem complete_withJunk {env : Env} {junk : Nat → Nat → UInt8} {server client : CPE} {ps : List Packet} :
    Complete (env.withJunk junk) server client ps ↔ Complete env server client ps := by
  induction ps generalizing client with
  | nil => exact Iff.rfl
  | cons p ps ih => exact and_congr_right fun _ => ih

/-- A packet that sees the segments has a relay with a plain field of several bytes. -/
theorem relay_of_seesSegments {m : Modes} {p : Packet} (hp : FromServer m p) (hbad : p.1 ∈ seesSegments) :
    ∃ r ∈ relays, r.id = p.1 ∧ r.width = p.2.length ∧ ∃ f ∈ r.layout, ¬ f.Safe := by
  have hne : p.1 ≠ 0x03 := fun h => absurd (h ▸ hbad) (by decide)
  have hmem : (p.1, p.2.length) ∈ serverPackets m := by simpa [FromServer, hne] using hp
  have hunsafe : ∀ r ∈ relays, r.id ∈ seesSegments → ∃ f ∈ r.layout, ¬ f.Safe := by decide
  have hspecial : ∀ fast wide, ∀ e ∈ specials ⟨fast, wide⟩, e.1 ∉ seesSegments := by decide
  rcases mem_serverPackets hmem with ⟨r, hr, hid, hwidth⟩ | h
  · exact ⟨r, hr, hid, hwidth, hunsafe r hr (hid ▸ hbad)⟩
  · exact absurd hbad (hspecial m.fast m.wide _ h)

theorem unsteady_mcConnect {env : Env} (hz : env.zlib.EndDocumented) {ps : List Packet} {client server : CPE}
    (hps : Complete env server client ps) (hbad : ∃ p ∈ beforeKick ps, p.1 ∈ seesSegments) :
    ∃ b : UInt8, ∀ (l : McLocals) (t : Tunnel), t.cpeClient = client → t.cpeServer = server →
      Unsteady (mcConnect (env.withJunk fun _ _ => b)) serverSock (ps.map (fun p => p.1 :: p.2)) l t := by
  induction ps generalizing client with
  | nil => exact absurd hbad (by simp [beforeKick])
  | cons p ps ih =>
      have he : p.1 ≠ 0x0e := by
        intro he
        rw [beforeKick, List.takeWhile_cons_of_neg (by simpa using he)] at hbad
        exact absurd hbad (by simp)
      rw [beforeKick_cons he] at hbad
      -- the first packet that sees the segments is enough: until then both runs are the same
      by_cases hp : p.1 ∈ seesSegments
      · obtain ⟨r, hr, hid, hwidth, hunsafe⟩ := relay_of_seesSegments hps.1 hp
        obtain ⟨b, hb⟩ := relay_differ serverSock hunsafe hwidth.symm
        refine ⟨b, fun l t _ _ => Or.inr fun i => ?_⟩
        show Differ serverSock ((mcConnect _ l).run (p.1 :: (p.2 ++ i)) t).out
          ((mcConnect _ l).run (⟨p.1 :: (p.2 ++ i)⟩ : Drip) t).out
        rw [← hid]
        exact differ_round _ _ (fun id => dispatch (env.withJunk fun _ _ => b) id l)
          (dispatch_of_mem (relay_mem _ hr) l) (hb (env.withJunk fun _ _ => b) (fun _ _ => rfl) i t)
      · obtain ⟨b, hb⟩ := ih hps.2 (by simpa [hp] using hbad)
        refine ⟨b, fun l t hclient hserver => Or.inl ?_⟩
        obtain ⟨r, t', out, htakes, hkick, hclient', hserver', -⟩ :=
          takesPacket (env.withJunk fun _ _ => b) hz t l (hclient ▸ hserver ▸ hps.1)
        cases r with
        | none => exact absurd (hkick.mp rfl) he
        | some l' =>
            exact ⟨l', t', out, takesAnywhere_mcConnect hp htakes,
              hb l' t' (by rw [hclient', hclient]; rfl) (hserver'.trans hserver)⟩

end Client

/-! ## `tunnelServer` -/

namespace Server

theorem takesAnywhere_tunnelServer {env : Env} {p : Packet} (hp : p.1 ∉ seesSegments) {l : ServerLocals}
    {t t' : Tunnel} {r : Option ServerLocals} {out : List (Socket × Bytes)}
    (h : (dispatch env p.1 l).Takes p.2 t r t' out) :
    (tunnelServer env l).TakesAnywhere (p.1 :: p.2) t r t' out :=
  takesAnywhere_round _ _ (fun id => dispatch env id l) _ ((segFree_dispatch env hp l).takesAnywhere h)

/-- The end of the process takes nothing. -/
theorem takes_exit (t : Tunnel) : (Prog.exit : Code ServerLocals).Takes [] t none t [] := fun _ => rfl

theorem endsAnywhere_tunnelServer (env : Env) (l : ServerLocals) (t : Tunnel) :
    (tunnelServer env l).EndsAnywhere t :=
  endsAnywhere_round _ _ (fun id => dispatch env id l) _ SegFree.exit (takes_exit t)

theorem steady_tunnelServer (env : Env) {ps : List Packet} (hgood : ∀ p ∈ ps, p.1 ∉ seesSegments)
    {l : ServerLocals} {t : Tunnel} (hps : Complete l.fucked ps) :
    Steady (tunnelServer env) (ps.map (fun p => p.1 :: p.2)) l t := by
  induction ps generalizing l t with
  | nil => exact endsAnywhere_tunnelServer env l t
  | cons p ps ih =>
      obtain ⟨r, t', out, htakes, hlocals, -⟩ := takesPacket env t hps.1 hps.2.1
      refine ⟨r, t', out, takesAnywhere_tunnelServer (hgood p List.mem_cons_self) htakes, fun l' hl' => ?_⟩
      refine ih (fun q hq => hgood q (List.mem_cons_of_mem p hq)) ?_
      rw [hlocals l' hl']
      exact hps.2.2

/-- A packet that sees the segments has a relay with a plain field of several bytes. -/
theorem relay_of_seesSegments {p : Packet} (hp : FromClient p) (hbad : p.1 ∈ seesSegments) :
    ∃ r ∈ relays, r.id = p.1 ∧ r.width = p.2.length ∧ ∃ f ∈ r.layout, ¬ f.Safe := by
  have hunsafe : ∀ r ∈ relays, r.id ∈ seesSegments → ∃ f ∈ r.layout, ¬ f.Safe := by decide
  have hspecial : ∀ e ∈ specials, e.1 ∉ seesSegments := by decide
  rcases mem_clientPackets hp with ⟨r, hr, hid, hwidth⟩ | h
  · exact ⟨r, hr, hid, hwidth, hunsafe r hr (hid ▸ hbad)⟩
  · exact absurd hbad (hspecial _ h)

/-- The tunnel starts without gimp texts, so no message ends it. -/
theorem unsteady_tunnelServer (env : Env) {ps : List Packet} {fucked : Bool} (hps : Complete fucked ps)
    (hbad : ∃ p ∈ ps, p.1 ∈ seesSegments) :
    ∃ b : UInt8, ∀ (l : ServerLocals) (t : Tunnel), l.fucked = fucked → t.gimpN ≠ 1 →
      Unsteady (tunnelServer (env.withJunk fun _ _ => b)) tunnelSock (ps.map (fun p => p.1 :: p.2)) l t := by
  induction ps generalizing fucked with
  | nil => exact absurd hbad (by simp)
  | cons p ps ih =>
      -- the first packet that sees the segments is enough: until then both runs are the same
      by_cases hp : p.1 ∈ seesSegments
      · obtain ⟨r, hr, hid, hwidth, hunsafe⟩ := relay_of_seesSegments hps.1 hp
        obtain ⟨b, hb⟩ := relay_differ tunnelSock hunsafe hwidth.symm
        refine ⟨b, fun l t _ _ => Or.inr fun i => ?_⟩
        show Differ tunnelSock ((tunnelServer _ l).run (p.1 :: (p.2 ++ i)) t).out
          ((tunnelServer _ l).run (⟨p.1 :: (p.2 ++ i)⟩ : Drip) t).out
        rw [← hid]
        exact differ_round _ _ (fun id => dispatch (env.withJunk fun _ _ => b) id l)
          (dispatch_of_mem (relay_mem _ hr) l) (hb (env.withJunk fun _ _ => b) (fun _ _ => rfl) i t)
      · obtain ⟨b, hb⟩ := ih hps.2.2 (by simpa [hp] using hbad)
        refine ⟨b, fun l t hl hgimp => Or.inl ?_⟩
        obtain ⟨r, t', out, htakes, hlocals, hruns⟩ :=
          takesPacket (env.withJunk fun _ _ => b) t (l := l) hps.1 (hl ▸ hps.2.1)
        obtain ⟨hr, hgimp'⟩ := hruns hgimp
        obtain ⟨l', rfl⟩ := Option.ne_none_iff_exists'.mp hr
        exact ⟨l', t', out, takesAnywhere_tunnelServer hp htakes,
          hb l' t' ((hlocals l' rfl).trans (by rw [hl])) hgimp'⟩

end Server

/-! ## Both loops -/

/-- **Segmentation independence.** Whatever is in the uninitialised variables, every two cuts of a stream of
    complete packets give the same bytes and the same state just if no packet of the stream sees the
    segments. -/
theorem splitFree_iff (env : Env) (hz : env.zlib.EndDocumented) :
    (∀ (ps : List Packet) (l : McLocals) (t : Tunnel), Client.Complete env t.cpeServer t.cpeClient ps →
      ((∀ junk, SplitFree (mcConnect (env.withJunk junk)) l t (encode ps)) ↔
        ∀ p ∈ Client.beforeKick ps, p.1 ∉ Client.seesSegments)) ∧
    (∀ ps : List Packet, Server.Complete false ps →
      ((∀ junk t, SplitFree (tunnelServer (env.withJunk junk)) {} t (encode ps)) ↔
        ∀ p ∈ ps, p.1 ∉ Server.seesSegments)) := by
  have hne : ∀ ps : List Packet, ∀ bs ∈ ps.map (fun p => p.1 :: p.2), bs ≠ [] := by
    intro ps bs hbs
    obtain ⟨p, -, rfl⟩ := List.mem_map.mp hbs
    simp
  -- one thread after the other, and for each the two directions by its runs
  constructor
  · intro ps l t hps
    rw [encode_eq_flatten]
    constructor
    · intro hfree p hp hbad
      obtain ⟨b, hb⟩ := Client.unsteady_mcConnect hz hps ⟨p, hp, hbad⟩
      exact (hb l t rfl rfl).not_splitFree (hne ps) (hfree fun _ _ => b)
    · intro hgood junk
      exact (Client.steady_mcConnect (env.withJunk junk) hz hgood (Client.complete_withJunk.mpr hps)).splitFree
  · intro ps hps
    rw [encode_eq_flatten]
    constructor
    · intro hfree p hp hbad
      obtain ⟨b, hb⟩ := Server.unsteady_tunnelServer env hps ⟨p, hp, hbad⟩
      exact (hb {} {} rfl (by decide)).not_splitFree (hne ps) (hfree (fun _ _ => b) {})
    · intro hgood junk t
      exact (Server.steady_tunnelServer _ hgood hps).splitFree

/-- A ping hides its segments, the removal of a player name does not. -/
theorem splitFree_ping_not_remove :
    (∀ junk, SplitFree (mcConnect (Env.withJunk {} junk)) {} {} (encode [(0x01, [])])) ∧
      ¬ ∀ junk t, SplitFree (tunnelServer (Env.withJunk {} junk)) {} t (encode [(0x18, [0, 7])]) := by
  have hz : Zlib.EndDocumented ({} : Env).zlib := fun _ _ _ => Or.inl rfl
  constructor
  · exact ((splitFree_iff {} hz).1 [(0x01, [])] {} {} ⟨by decide, trivial⟩).mpr (by decide)
  · intro hfree
    have hgood := ((splitFree_iff {} hz).2 [(0x18, [0, 7])] ⟨by decide, by decide, trivial⟩).mp hfree
    exact hgood (0x18, [0, 7]) List.mem_cons_self (by decide)

/-- An environment color of the server, in one segment and with a segment that ends inside `red`. -/
theorem mcConnect_sees_segments :
    ¬ SplitFree (mcConnect {}) {} {} (encode [(0x19, [0, 1, 2, 3, 4, 5, 6])]) := by
  intro hfree
  have hout := (hfree ⟨[[0x19, 0, 1, 2, 3, 4, 5, 6]], by decide⟩ ⟨[[0x19, 0, 1], [2, 3, 4, 5, 6]], by decide⟩
    rfl rfl).1 serverSock
  revert hout
  decide

end LavaTunnel
