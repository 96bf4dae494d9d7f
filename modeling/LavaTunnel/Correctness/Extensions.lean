import LavaTunnel.Correctness.Cpe
import LavaTunnel.Correctness.Nest
import LavaTunnel.Correctness.ServerRelay
import LavaTunnel.Correctness.Text

/-!
# `LavaTunnel.Correctness.Extensions` — the flags of the extensions

The flags decide how wide the fields of later packets are. A name comes in 64 bytes, is copied to a buffer without a
terminator, ended at its first two spaces in a row, and compared with each of the six names. Over any number of
entries, a flag is up at the end just if it was up before or its own name was among them.
-/

namespace LavaTunnel

open Wire Wire.Prog

/-- The flags, each with the name of its extension. -/
def cpeFlags : List ((CPE → Bool) × Bytes) :=
  [(CPE.fastMap, ascii "FastMap"), (CPE.extEntityPos, ascii "ExtEntityPositions"),
    (CPE.extText, ascii "ExtendedTextures"), (CPE.extBlocks, ascii "ExtendedBlocks"),
    (CPE.blockDefs, ascii "BlockDefinitions"), (CPE.blockDefsExt, ascii "BlockDefinitionsExt")]

/-- What an ExtEntry packet tells: a name that leaves room for two spaces, and a version. -/
structure Extension where
  name : Bytes
  version : Bytes
  plain : PlainText name
  length_name : name.length ≤ 62
  length_version : version.length = 4

/-- The payload of the packet. -/
def Extension.payload (e : Extension) : Bytes := padded e.name ++ e.version

/-- The packets. -/
def entryPackets (exts : List Extension) : List Packet := exts.map (fun e => (0x11, e.payload))

theorem Extension.length_payload (e : Extension) : e.payload.length = 68 := by
  have hname := e.length_name
  unfold Extension.payload
  rw [List.length_append, length_padded (by omega), e.length_version]

theorem Extension.field_name (e : Extension) : field e.payload 0 64 = padded e.name := by
  have hname := e.length_name
  exact List.take_left' (length_padded (by omega))

/-! ## One entry -/

/-- **The name is read as it was sent.** -/
theorem nextname_eq (env : Env) {name : Bytes} (h : PlainText name) (hlen : name.length ≤ 62) :
    cstr (nullTerm env (strncpy64 (padded name))) = name := by
  have hpadded : (padded name).length = 64 := length_padded (by omega)
  have hnul : 0 ∉ padded name := by
    unfold padded
    rw [List.mem_append, List.mem_replicate]
    rintro (h0 | ⟨-, h0⟩)
    · exact h.noNul h0
    · exact absurd h0 (by decide)
  unfold nullTerm
  rw [strncpy64_eq hpadded hnul, cstr_eq hnul, twoSpaces_padded env.past h (by omega),
    if_pos (show Terminated env.past name from Or.inl hlen)]
  show cstr ((padded name).set name.length 0) = name
  rw [cstr_set_zero (by omega)]
  unfold padded
  rw [List.take_left, cstr_eq h.noNul]

/-- An entry raises the flag that has its name, and no other. -/
theorem announce_flag (env : Env) (e : Extension) (cpe : CPE) : ∀ p ∈ cpeFlags,
    (p.1 (Client.announce env (field e.payload 0 64) cpe) = true ↔ p.1 cpe = true ∨ e.name = p.2) := by
  have hor : ∀ (flag : Bool) (name : Bytes), (flag || e.name == name) = true ↔ flag = true ∨ e.name = name := by
    intro flag name
    rw [Bool.or_eq_true, beq_iff_eq]
  rw [e.field_name]
  unfold Client.announce
  rw [nextname_eq env e.plain e.length_name]
  simp only [cpeFlags, List.forall_mem_cons]
  exact ⟨hor _ _, hor _ _, hor _ _, hor _ _, hor _ _, hor _ _, fun p hp => absurd hp List.not_mem_nil⟩

/-! ## All of them -/

/-- A round of the loop takes an entry into its flags, leaves the other ones alone, and passes the entry on. -/
def HearsEntry {L : Type} (env : Env) (body : L → Code L) (dest : Socket) (flags others : Tunnel → CPE) (l : L) :
    Prop :=
  ∀ (e : Bytes) (t : Tunnel) (rest : Bytes), e.length = 68 → ∃ t' out,
    (body l).run (0x11 :: (e ++ rest)) t = ⟨some l, rest, t', out⟩ ∧
      flags t' = Client.announce env (field e 0 64) (flags t) ∧ others t' = others t ∧
      (body l).sent (0x11 :: (e ++ rest)) t = [(dest, 0x11 :: e)]

/-- **A sequence of entries.** -/
theorem rounds_entries {L : Type} {env : Env} {body : L → Code L} {dest : Socket} {flags others : Tunnel → CPE}
    {l : L}
    (hbody : HearsEntry env body dest flags others l) (exts : List Extension) {fs : List (Tunnel → Tunnel)}
    (hlen : fs.length = exts.length) (hfs : ∀ f ∈ fs, Keeps flags f) (t : Tunnel) :
    (∀ p ∈ cpeFlags, (p.1 (flags ((rounds body fs l).run (encode (entryPackets exts)) t).state) = true ↔
        p.1 (flags t) = true ∨ ∃ e ∈ exts, e.name = p.2)) ∧
      ((∀ f ∈ fs, Keeps others f) →
        others ((rounds body fs l).run (encode (entryPackets exts)) t).state = others t) ∧
      (rounds body fs l).sent (encode (entryPackets exts)) t = exts.map (fun e => (dest, 0x11 :: e.payload)) := by
  induction exts generalizing fs t with
  | nil =>
      obtain rfl : fs = [] := List.eq_nil_of_length_eq_zero hlen
      exact ⟨fun p _ => (or_iff_left (by rintro ⟨e, he, -⟩; exact absurd he List.not_mem_nil)).symm,
        fun _ => rfl, rfl⟩
  | cons e exts ih =>
      obtain ⟨f, fs, rfl⟩ := List.exists_cons_of_length_eq_add_one hlen
      obtain ⟨t', out, hrun, hflags, hothers, hsent⟩ := hbody e.payload (f t) (encode (entryPackets exts))
        e.length_payload
      obtain ⟨hrest, hrest', hpassed⟩ := ih (Nat.succ.inj hlen) (fun g hg => hfs g (List.mem_cons_of_mem f hg)) t'
      have hencode : encode (entryPackets (e :: exts)) = 0x11 :: (e.payload ++ encode (entryPackets exts)) := rfl
      have hstate : ((rounds body (f :: fs) l).run (encode (entryPackets (e :: exts))) t).state =
          ((rounds body fs l).run (encode (entryPackets exts)) t').state := by
        rw [hencode, run_rounds_cons, hrun]
        rfl
      rw [hstate]
      refine ⟨fun p hp => ?_, fun hkeep => ?_, ?_⟩
      · rw [hrest p hp, hflags, hfs f List.mem_cons_self t, announce_flag env e _ p hp, or_assoc]
        refine or_congr_right ?_
        simp only [List.mem_cons, exists_eq_or_imp]
      · rw [hrest' fun g hg => hkeep g (List.mem_cons_of_mem f hg), hothers, hkeep f List.mem_cons_self t]
      · rw [hencode, sent_rounds_cons body f fs hrun, hsent, hpassed]
        rfl

section Loops

variable (env : Env)

theorem hearsEntry_tunnelServer (l : ServerLocals) :
    HearsEntry env (tunnelServer env) tunnelSock (fun t => t.cpeServer) (fun t => t.cpeClient) l := by
  intro e t rest he
  have hmem : (0x11, Server.extEntry env) ∈ Server.handlers env := Server.own_mem (by repeat constructor)
  have htakes := (Server.takes_extEntry env t he).then (f := fun _ => pure l) (Takes.pure l)
  rw [← Server.dispatch_of_mem hmem] at htakes
  obtain ⟨-, -, -, hsent⟩ := passesEntries_tunnelServer env l e t rest he
  exact ⟨_, _, takes_tunnelServer (p := (0x11, e)) htakes rest, rfl, rfl, hsent⟩

theorem hearsEntry_mcConnect (l : McLocals) :
    HearsEntry env (mcConnect env) serverSock (fun t => t.cpeClient) (fun t => t.cpeServer) l := by
  intro e t rest he
  have hmem : (0x11, Client.extEntry env) ∈ Client.handlers env := Client.own_mem (by repeat constructor)
  have htakes := (Client.takes_extEntry env t he).then (f := fun _ => pure l) (Takes.pure l)
  rw [← Client.dispatch_of_mem hmem] at htakes
  obtain ⟨-, -, -, hsent⟩ := passesEntries_mcConnect env l e t rest he
  exact ⟨_, _, takes_mcConnect (p := (0x11, e)) htakes rest, rfl, rfl, hsent⟩

end Loops

/-- The flags of the side that an entry comes from. -/
def Side.flags : Side → Tunnel → CPE
  | .tunnelServer _, t => t.cpeServer
  | .mcConnect _, t => t.cpeClient

/-- Those of the other side. -/
def Side.others : Side → Tunnel → CPE
  | .tunnelServer _, t => t.cpeClient
  | .mcConnect _, t => t.cpeServer

/-- Where the loop passes things on to. -/
def Side.dest : Side → Socket
  | .tunnelServer _ => tunnelSock
  | .mcConnect _ => serverSock

/-- The state after some rounds of the loop. -/
def Side.after (env : Env) (fs : List (Tunnel → Tunnel)) (input : Bytes) (t : Tunnel) : Side → Tunnel
  | .tunnelServer l => ((rounds (LavaTunnel.tunnelServer env) fs l).run input t).state
  | .mcConnect l => ((rounds (LavaTunnel.mcConnect env) fs l).run input t).state

/-- What the loop sends in some rounds. -/
def Side.sends (env : Env) (fs : List (Tunnel → Tunnel)) (input : Bytes) (t : Tunnel) : Side → List (Socket × Bytes)
  | .tunnelServer l => (rounds (LavaTunnel.tunnelServer env) fs l).sent input t
  | .mcConnect l => (rounds (LavaTunnel.mcConnect env) fs l).sent input t

/-- **Each flag is raised by its own name**, over any sequence of entries, and the entries are passed on. -/
theorem flags_after_iff (env : Env) (exts : List Extension) (side : Side) {fs : List (Tunnel → Tunnel)}
    (hlen : fs.length = exts.length) (hfs : ∀ f ∈ fs, Keeps side.flags f) (t : Tunnel) :
    (∀ p ∈ cpeFlags, (p.1 (side.flags (side.after env fs (encode (entryPackets exts)) t)) = true ↔
        p.1 (side.flags t) = true ∨ ∃ e ∈ exts, e.name = p.2)) ∧
      ((∀ f ∈ fs, Keeps side.others f) →
        side.others (side.after env fs (encode (entryPackets exts)) t) = side.others t) ∧
      side.sends env fs (encode (entryPackets exts)) t = exts.map (fun e => (side.dest, 0x11 :: e.payload)) := by
  cases side with
  | tunnelServer l => exact rounds_entries (hearsEntry_tunnelServer env l) exts hlen hfs t
  | mcConnect l => exact rounds_entries (hearsEntry_mcConnect env l) exts hlen hfs t

/-- The entry of an extension that another one's name begins with. -/
def blockDefinitions : Extension where
  name := ascii "BlockDefinitions"
  version := [0, 0, 0, 1]
  plain := ⟨by decide, fun h => absurd (h.subset List.mem_cons_self) (by decide), by decide⟩
  length_name := by decide
  length_version := rfl

/-- The entry of an extension with the longest name. -/
def entityPositions : Extension where
  name := ascii "ExtEntityPositions"
  version := [0, 0, 0, 1]
  plain := ⟨by decide, fun h => absurd (h.subset List.mem_cons_self) (by decide), by decide⟩
  length_name := by decide
  length_version := rfl

/-- Somebody hides between the two entries. Of the six flags two are raised, and the entries go on as they came. -/
theorem flags_after_blockDefinitions :
    let fs : List (Tunnel → Tunnel) := [id, fun t => { t with hide := true }]
    let exts := [blockDefinitions, entityPositions]
    (∀ p ∈ cpeFlags, (p.1 ((Side.tunnelServer {}).flags
        ((Side.tunnelServer {}).after {} fs (encode (entryPackets exts)) {})) = true ↔
      p.2 = ascii "BlockDefinitions" ∨ p.2 = ascii "ExtEntityPositions")) ∧
      (Side.tunnelServer {}).sends {} fs (encode (entryPackets exts)) {} =
        [((Side.tunnelServer {}).dest, 0x11 :: blockDefinitions.payload),
          ((Side.tunnelServer {}).dest, 0x11 :: entityPositions.payload)] := by
  intro fs exts
  have hfs : ∀ f ∈ fs, Keeps (Side.tunnelServer {}).flags f := by
    intro f hf
    simp only [fs, List.mem_cons, List.not_mem_nil, or_false] at hf
    rcases hf with rfl | rfl
    · exact keeps_id _
    · exact fun t => rfl
  have hdown : ∀ p ∈ cpeFlags, p.1 {} = false := by decide
  obtain ⟨hflags, _, hsends⟩ := flags_after_iff {} exts (.tunnelServer {}) rfl hfs {}
  refine ⟨fun p hp => ?_, hsends⟩
  rw [hflags p hp]
  show p.1 {} = true ∨ _ ↔ _
  rw [hdown p hp]
  simp only [exts, Bool.false_eq_true, List.mem_cons, List.not_mem_nil, or_false, exists_eq_or_imp, exists_eq_left,
    false_or]
  exact or_congr eq_comm eq_comm

end LavaTunnel
