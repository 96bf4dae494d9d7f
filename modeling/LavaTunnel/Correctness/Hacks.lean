import LavaTunnel.Correctness.Mirror

/-!
# `LavaTunnel.Correctness.Hacks` — restrictions do not reach the client

With `hax` on the tunnel says in place of the server what the client may do: its own texts in a MOTD, and
permission for everything. So the client cannot tell two servers apart that differ only in their restrictions.
The second byte of a jump height does not go through either: it lies in `respawn`, which is overwritten.
-/

namespace LavaTunnel

open Wire Wire.Prog

/-- Hacks are on, with a text that fits its buffer and formats nothing. -/
structure HacksOn (t : Tunnel) : Prop where
  hax : t.hax = 1
  short : t.haxType.length < 64
  literal : 37 ∉ t.haxType

/-- The second packet is the first one, or differs from it in what restricts the client: the two texts of a MOTD,
    the two permissions for a block, or everything in a hack control. -/
inductive SameButRestrictions : Packet → Packet → Prop
  | same (p : Packet) : SameButRestrictions p p
  | motd {payload payload' : Bytes} (hlen : payload.length = payload'.length)
      (hversion : field payload 0 1 = field payload' 0 1) (htype : field payload 129 1 = field payload' 129 1) :
      SameButRestrictions (0x00, payload) (0x00, payload')
  | permission {payload payload' : Bytes} (hlen : payload.length = payload'.length)
      (hblock : field payload 0 1 = field payload' 0 1) : SameButRestrictions (0x1C, payload) (0x1C, payload')
  | hackcontrol {payload payload' : Bytes} (hlen : payload.length = payload'.length) :
      SameButRestrictions (0x20, payload) (0x20, payload')

theorem HacksOn.congr {t s : Tunnel} (h : HacksOn t) (hsettled : s.settled = t.settled) : HacksOn s := by
  have hhax : s.hax = t.hax := congrArg (fun u => u.2.1) hsettled
  have htype : s.haxType = t.haxType := congrArg (fun u => u.2.2) hsettled
  exact ⟨hhax.trans h.hax, htype ▸ h.short, htype ▸ h.literal⟩

namespace Client

section Round

variable {env : Env} {t t' : Tunnel} {l : McLocals}

/-- Two rounds that the client cannot tell apart. -/
structure RoundsAlike (env : Env) (p p' : Packet) (l : McLocals) (t t' : Tunnel) (r : Option McLocals) (s s' : Tunnel)
    (out out' : List (Socket × Bytes)) : Prop where
  takes : (dispatch env p.1 l).Takes p.2 t r s out
  takes' : (dispatch env p'.1 l).Takes p'.2 t' r s' out'
  read : s.read = s'.read
  settled : s.settled = t.settled
  same : stream serverSock out = stream serverSock out'

/-- The modes are read. -/
theorem modes_congr (hread : t.read = t'.read) : t.modes = t'.modes := by
  have hmodes : t.read.modes = t'.read.modes := by rw [hread]
  exact hmodes

/-- So are the hacks. -/
theorem hax_congr (hread : t.read = t'.read) : t.hax = t'.hax ∧ t.haxType = t'.haxType := by
  have hhax : t.read.hax = t'.read.hax ∧ t.read.haxType = t'.read.haxType := by
    rw [hread]
    exact ⟨rfl, rfl⟩
  exact hhax

/-- The same packet does the same. -/
theorem roundsAlike_same (hz : env.zlib.EndDocumented) {p : Packet} (hread : t.read = t'.read)
    (hp : FromServer t.modes p) : ∃ r s s' out out', RoundsAlike env p p l t t' r s s' out out' := by
  have hp' : FromServer t'.modes p := modes_congr hread ▸ hp
  obtain ⟨r, s, out, htakes, -, -, -, -⟩ := takesPacket env hz t l hp
  obtain ⟨r', s', out', htakes', -, -, -, -⟩ := takesPacket env hz t' l hp'
  have hround := takes_mcConnect htakes
  have hround' := takes_mcConnect htakes'
  obtain ⟨⟨hr, -, hout, hstate⟩, -⟩ := (wholly_mcConnect env l).run_eq ((p.1 :: p.2) ++ []) hread
  have hkept := (wholly_mcConnect env l).run_kept ((p.1 :: p.2) ++ []) t
  rw [hround [], hround' []] at hr hout hstate
  rw [hround []] at hkept
  obtain rfl : r = r' := hr
  obtain rfl : out = out' := hout
  refine ⟨r, s, s', out, out, htakes, htakes', hstate, ?_, rfl⟩
  -- `settled` is part of what a round keeps
  exact hkept

variable {payload payload' : Bytes}

/-- A MOTD goes out with the texts of the tunnel. -/
theorem roundsAlike_motd (hread : t.read = t'.read) (hhax : t.hax = 1) (hlen : payload.length = payload'.length)
    (htype : field payload 129 1 = field payload' 129 1) (hp : FromServer t.modes (0x00, payload)) :
    ∃ r s s' out out', RoundsAlike env (0x00, payload) (0x00, payload') l t t' r s s' out out' := by
  have h130 : payload.length = 130 := by simpa [FromServer, serverPackets] using hp
  have htakes := takes_serverMotd env t l h130
  have htakes' := takes_serverMotd env t' l (hlen ▸ h130)
  obtain ⟨hhax', htext⟩ := hax_congr hread
  have hmotd : ∀ a b, motdText t a = motdText t' b := by
    intro a b
    unfold motdText
    rw [if_pos hhax, if_pos (hhax'.symm.trans hhax), htext]
  rw [← htype, ← hmotd (field payload 1 64), ← hmotd (field payload 65 64)] at htakes'
  refine ⟨_, _, _, _, _, htakes, htakes', ?_, rfl, rfl⟩
  -- the texts of the server are kept where nobody reads them
  exact hread

/-- A permission goes out as granted. -/
theorem roundsAlike_permission (hread : t.read = t'.read) (hhax : t.hax = 1)
    (hlen : payload.length = payload'.length) (hblock : field payload 0 1 = field payload' 0 1)
    (hp : FromServer t.modes (0x1C, payload)) :
    ∃ r s s' out out', RoundsAlike env (0x1C, payload) (0x1C, payload') l t t' r s s' out out' := by
  have h3 : payload.length = 3 := by simpa [FromServer, serverPackets] using hp
  have hmem : (0x1C, setBlockPermission env) ∈ handlers env := own_mem (by repeat constructor)
  have htakes := (takes_setBlockPermission env t h3).then (f := fun _ => pure l) (Takes.pure l)
  have htakes' := (takes_setBlockPermission env t' (hlen ▸ h3)).then (f := fun _ => pure l) (Takes.pure l)
  rw [← dispatch_of_mem hmem] at htakes htakes'
  have hcalls : permissionCalls t payload = permissionCalls t' payload' := by
    unfold permissionCalls
    rw [if_pos hhax, if_pos ((hax_congr hread).1.symm.trans hhax), hblock]
  rw [← hcalls] at htakes'
  exact ⟨_, _, _, _, _, htakes, htakes', hread, rfl, rfl⟩

/-- Of a hack control nothing is left but its id. -/
theorem stream_hackCalls (hhax : t.hax = 1) :
    stream serverSock (written serverSock (hackCalls t payload)) = [0x20, 255, 1, 255, 255, 1, 255, 1] := by
  rw [stream_written, hackCalls, if_pos hhax]
  rfl

/-- A hack control goes out as no restriction. -/
theorem roundsAlike_hackcontrol (hread : t.read = t'.read) (hhax : t.hax = 1)
    (hlen : payload.length = payload'.length) (hp : FromServer t.modes (0x20, payload)) :
    ∃ r s s' out out', RoundsAlike env (0x20, payload) (0x20, payload') l t t' r s s' out out' := by
  have h7 : payload.length = 7 := by simpa [FromServer, serverPackets] using hp
  have h7' : payload'.length = 7 := hlen ▸ h7
  have hmem : (0x20, hackcontrol env) ∈ handlers env := own_mem (by repeat constructor)
  have htakes := (takes_hackcontrol env t h7).then (f := fun _ => pure l) (Takes.pure l)
  have htakes' := (takes_hackcontrol env t' h7').then (f := fun _ => pure l) (Takes.pure l)
  rw [← dispatch_of_mem hmem, List.append_nil] at htakes htakes'
  refine ⟨_, _, _, _, _, htakes, htakes', hread, rfl, ?_⟩
  rw [stream_hackCalls hhax, stream_hackCalls ((hax_congr hread).1.symm.trans hhax)]

/-- **A round**, with packets that differ only in restrictions. -/
theorem roundsAlike (hz : env.zlib.EndDocumented) {p p' : Packet} (h : SameButRestrictions p p')
    (hread : t.read = t'.read) (hhax : t.hax = 1) (hp : FromServer t.modes p) :
    ∃ r s s' out out', RoundsAlike env p p' l t t' r s s' out out' := by
  cases h with
  | same p => exact roundsAlike_same hz hread hp
  | motd hlen hversion htype => exact roundsAlike_motd hread hhax hlen htype hp
  | permission hlen hblock => exact roundsAlike_permission hread hhax hlen hblock hp
  | hackcontrol hlen => exact roundsAlike_hackcontrol hread hhax hlen hp

end Round

/-! ## The run -/

/-- Two runs, from states that read alike. -/
theorem hidden_run {env : Env} (hz : env.zlib.EndDocumented) {ps ps' : List Packet}
    (h : List.Forall₂ SameButRestrictions ps ps') {fs : List (Tunnel → Tunnel)} (hlen : fs.length = ps.length)
    (hread : ∀ f ∈ fs, ∀ t, (f t.read).read = (f t).read) (hhacks : ∀ f ∈ fs, ∀ t, HacksOn t → HacksOn (f t))
    {l : McLocals} {t t' : Tunnel} (halike : t.read = t'.read) (ht : HacksOn t) (hps : CompleteRun env fs l ps t)
    (rest : Bytes) :
    stream serverSock ((rounds (mcConnect env) fs l).run (encode ps ++ rest) t).out =
        stream serverSock ((rounds (mcConnect env) fs l).run (encode ps' ++ rest) t').out := by
  induction h generalizing fs l t t' with
  | nil =>
      obtain rfl : fs = [] := List.eq_nil_of_length_eq_zero hlen
      rfl
  | @cons p p' ps ps' hp hrest ih =>
      obtain ⟨f, fs, rfl⟩ := List.exists_cons_of_length_eq_add_one hlen
      obtain ⟨hfirst, hnext⟩ := hps
      have hf : HacksOn (f t) := hhacks f List.mem_cons_self t ht
      have halike' : (f t).read = (f t').read := by
        rw [← hread f List.mem_cons_self t, halike, hread f List.mem_cons_self t']
      obtain ⟨r, s, s', out, out', hround⟩ := roundsAlike (l := l) hz hp halike' hf.hax hfirst
      have htakes := hround.takes
      have htakes' := hround.takes'
      have hencode : encode (p :: ps) ++ rest = (p.1 :: p.2) ++ (encode ps ++ rest) := by simp
      have hencode' : encode (p' :: ps') ++ rest = (p'.1 :: p'.2) ++ (encode ps' ++ rest) := by simp
      rw [hencode, hencode']
      cases r with
      | none =>
          -- a kick: nothing behind it is received
          rw [run_rounds_ends (takes_mcConnect htakes), run_rounds_ends (takes_mcConnect htakes'), hround.same]
      | some l' =>
          have hs : HacksOn s := hf.congr hround.settled
          have hbehind := ih (by simpa using hlen) (fun g hg => hread g (List.mem_cons_of_mem f hg))
            (fun g hg => hhacks g (List.mem_cons_of_mem f hg)) hround.read hs (hnext l' s out htakes)
          rw [run_rounds_takes (takes_mcConnect htakes), run_rounds_takes (takes_mcConnect htakes')]
          simp only [Outcome.after, stream_append]
          rw [hround.same, hbehind]

end Client

end LavaTunnel
