import LavaTunnel.Correctness.Dispatch
import LavaTunnel.Correctness.Tame

/-!
# `LavaTunnel.Correctness.Cpe` — the extensions that are announced

Each side announces its extensions by an ExtInfo packet with their number, and an ExtEntry packet for each of
them. Both loops pass all of the entries on. `mcConnect` passes on the number, too; `tunnelServer` takes one
away, for an entry that it once kept to itself and now sends.
-/

namespace LavaTunnel

open Wire Wire.Prog

/-- The extensions of one side, with the name of its software. -/
structure Handshake where
  app : Bytes
  entries : List Bytes
  length_app : app.length = 64
  length_entry : ∀ e ∈ entries, e.length = 68
  count_lt : entries.length < 65536

/-- The payload of the ExtInfo packet. -/
def Handshake.info (h : Handshake) : Bytes := h.app ++ bytesOf (htons (UInt16.ofNat h.entries.length))

/-- The packets that announce them. -/
def Handshake.packets (h : Handshake) : List Packet := (0x10, h.info) :: h.entries.map (fun e => (0x11, e))

/-- The number in an ExtInfo packet. -/
def announcedCount (packet : Bytes) : Nat := (host (field packet 65 2)).toNat

/-- An ExtInfo packet, and after it as many ExtEntry packets as it announces. -/
def CountAgrees : List Bytes → Prop
  | [] => False
  | info :: rest => info.head? = some 0x10 ∧
      announcedCount info = (rest.filter (fun bs => bs.head? = some 0x11)).length

theorem Handshake.length_info (h : Handshake) : h.info.length = 66 := by
  unfold Handshake.info
  rw [List.length_append, h.length_app, length_bytesOf]

/-- A number as it goes over the wire. -/
theorem host_bytesOf_htons (x : UInt16) : host (bytesOf (htons x)) = x := by
  have h₁ : x.toNat < 65536 := x.toNat_lt
  unfold host ntohs
  rw [ofBytes_bytesOf, bytesOf_htons, List.reverse_reverse, ofBytes_bytesOf]

theorem announcedCount_eq {app : Bytes} (h : app.length = 64) (x : UInt16) :
    announcedCount (0x10 :: (app ++ bytesOf (htons x))) = x.toNat := by
  have hfield : field (0x10 :: (app ++ bytesOf (htons x))) 65 2 = bytesOf (htons x) := by
    unfold field
    rw [List.drop_succ_cons, List.drop_append_of_le_length h.ge, List.drop_eq_nil_of_le h.le, List.nil_append]
    rfl
  unfold announcedCount
  rw [hfield, host_bytesOf_htons]

/-! ## The entries -/

variable {L : Type}

/-- A round of the loop passes an entry on. -/
def PassesEntries (body : L → Code L) (dest : Socket) (l : L) : Prop :=
  ∀ (e : Bytes) (t : Tunnel) (rest : Bytes), e.length = 68 → ∃ t' out,
    (body l).run (0x11 :: (e ++ rest)) t = ⟨some l, rest, t', out⟩ ∧
      (body l).sent (0x11 :: (e ++ rest)) t = [(dest, 0x11 :: e)]

/-- All of them are passed on. -/
theorem sent_entries {body : L → Code L} {dest : Socket} {l : L} (hbody : PassesEntries body dest l)
    (entries : List Bytes) (hlen : ∀ e ∈ entries, e.length = 68) (fs : List (Tunnel → Tunnel))
    (hfs : fs.length = entries.length) (t : Tunnel) :
    (rounds body fs l).sent (encode (entries.map (fun e => (0x11, e)))) t =
      entries.map (fun e => (dest, 0x11 :: e)) := by
  induction entries generalizing fs t with
  | nil =>
      obtain rfl : fs = [] := List.eq_nil_of_length_eq_zero hfs
      rfl
  | cons e entries ih =>
      cases fs with
      | nil => exact absurd hfs (by simp)
      | cons f fs =>
          obtain ⟨t', out, hrun, hsent⟩ := hbody e (f t) (encode (entries.map (fun e => (0x11, e))))
            (hlen e List.mem_cons_self)
          have hrest := ih (fun e he => hlen e (List.mem_cons_of_mem _ he)) fs (by simpa using hfs) t'
          rw [List.map_cons, encode_cons, sent_rounds_cons body f fs hrun, hsent, hrest]
          rfl

/-- An ExtInfo packet with the number `x`, and the entries. -/
theorem countAgrees_iff (h : Handshake) (dest : Socket) (x : UInt16) :
    CountAgrees (sentTo dest ((dest, 0x10 :: (h.app ++ bytesOf (htons x))) ::
      h.entries.map (fun e => (dest, 0x11 :: e)))) ↔ x.toNat = h.entries.length := by
  -- everything was sent to one socket, so the filters keep everything
  have hsent : ∀ l : List Bytes, sentTo dest (l.map (fun bs => (dest, bs))) = l := by
    intro l
    unfold sentTo
    rw [List.filter_eq_self.mpr (by simp), List.map_map]
    exact List.map_id l
  have hmap : (dest, 0x10 :: (h.app ++ bytesOf (htons x))) :: h.entries.map (fun e => (dest, 0x11 :: e)) =
      ((0x10 :: (h.app ++ bytesOf (htons x))) :: h.entries.map (fun e => 0x11 :: e)).map (fun bs => (dest, bs)) := by
    rw [List.map_cons, List.map_map]
    rfl
  have hfilter : ((h.entries.map (fun e => (0x11 : UInt8) :: e)).filter
      (fun bs => bs.head? = some 0x11)).length = h.entries.length := by
    rw [List.filter_eq_self.mpr (by simp), List.length_map]
  rw [hmap, hsent]
  show (some 0x10 = some 0x10 ∧ announcedCount _ = _) ↔ _
  rw [announcedCount_eq h.length_app, hfilter]
  exact and_iff_right rfl

/-! ## The two loops -/

section Loops

variable (env : Env)

theorem passesEntries_tunnelServer (l : ServerLocals) : PassesEntries (tunnelServer env) tunnelSock l := by
  intro e t rest he
  have hmem : (0x11, Server.extEntry env) ∈ Server.handlers env := Server.own_mem (by repeat constructor)
  have htakes := (Server.takes_extEntry env t he).then (f := fun _ => pure l) (Takes.pure l)
  rw [← Server.dispatch_of_mem hmem] at htakes
  refine ⟨_, _, takes_tunnelServer (p := (0x11, e)) htakes rest, ?_⟩
  rw [sent_tunnelServer hmem, ← List.take_append_drop 64 e, List.append_assoc]
  rw [Server.extEntry, sent_recvVarW_append _ (List.length_take_of_le (by omega)),
    sent_recvVarW_append _ (by rw [List.length_drop]; omega)]
  show [(tunnelSock, [0x11] ++ (e.take 64 ++ (e.drop 64 ++ [])))] = _
  rw [List.append_nil, List.take_append_drop]
  rfl

theorem passesEntries_mcConnect (l : McLocals) : PassesEntries (mcConnect env) serverSock l := by
  intro e t rest he
  have hmem : (0x11, Client.extEntry env) ∈ Client.handlers env := Client.own_mem (by repeat constructor)
  have htakes := (Client.takes_extEntry env t he).then (f := fun _ => pure l) (Takes.pure l)
  rw [← Client.dispatch_of_mem hmem] at htakes
  refine ⟨_, _, takes_mcConnect (p := (0x11, e)) htakes rest, ?_⟩
  rw [sent_mcConnect hmem, ← List.take_append_drop 64 e, List.append_assoc]
  rw [Client.extEntry, sent_recvVarW_append _ (List.length_take_of_le (by omega)),
    sent_recvVarW_append _ (by rw [List.length_drop]; omega)]
  show [(serverSock, [0x11] ++ (e.take 64 ++ (e.drop 64 ++ [])))] = _
  rw [List.append_nil, List.take_append_drop]
  rfl

variable (h : Handshake) {fs : List (Tunnel → Tunnel)} (hfs : fs.length = h.entries.length + 1) (t : Tunnel)
include hfs

/-- `tunnelServer` announces one extension less. -/
theorem sent_handshake_tunnelServer (l : ServerLocals) :
    (rounds (tunnelServer env) fs l).sent (encode h.packets) t =
      (tunnelSock, 0x10 :: (h.app ++ bytesOf (htons (UInt16.ofNat h.entries.length - 1)))) ::
        h.entries.map (fun e => (tunnelSock, 0x11 :: e)) := by
  obtain ⟨f, fs, rfl⟩ := List.exists_cons_of_length_eq_add_one hfs
  have hmem : (0x10, Server.extInfo env) ∈ Server.handlers env := Server.own_mem (by repeat constructor)
  have htakes := (Server.takes_extInfo env (f t) h.length_info).then (f := fun _ => pure l) (Takes.pure l)
  rw [← Server.dispatch_of_mem hmem] at htakes
  have hentries := sent_entries (passesEntries_tunnelServer env l) h.entries h.length_entry fs (by simpa using hfs)
    (f t)
  have hround := takes_tunnelServer (p := (0x10, h.info)) htakes (encode (h.entries.map (fun e => (0x11, e))))
  rw [List.cons_append] at hround
  rw [Handshake.packets, encode_cons, sent_rounds_cons _ f fs hround, hentries, sent_tunnelServer hmem,
    Handshake.info, List.append_assoc, Server.extInfo,
    sent_recvVarW_append _ h.length_app, sent_recvVarW_append _ (length_bytesOf _), host_bytesOf_htons]
  show (tunnelSock, [0x10] ++ (h.app ++ (_ ++ []))) :: _ = _
  rw [List.append_nil]
  rfl

/-- `mcConnect` announces as many as there are. -/
theorem sent_handshake_mcConnect (l : McLocals) :
    (rounds (mcConnect env) fs l).sent (encode h.packets) t =
      (serverSock, 0x10 :: (h.app ++ bytesOf (htons (UInt16.ofNat h.entries.length)))) ::
        h.entries.map (fun e => (serverSock, 0x11 :: e)) := by
  obtain ⟨f, fs, rfl⟩ := List.exists_cons_of_length_eq_add_one hfs
  have hmem : (0x10, Client.extInfo env) ∈ Client.handlers env := Client.own_mem (by repeat constructor)
  have htakes := (Client.takes_extInfo env (f t) h.length_info).then (f := fun _ => pure l) (Takes.pure l)
  rw [← Client.dispatch_of_mem hmem] at htakes
  have hentries := sent_entries (passesEntries_mcConnect env l) h.entries h.length_entry fs (by simpa using hfs)
    (f t)
  have hround := takes_mcConnect (p := (0x10, h.info)) htakes (encode (h.entries.map (fun e => (0x11, e))))
  rw [List.cons_append] at hround
  rw [Handshake.packets, encode_cons, sent_rounds_cons _ f fs hround, hentries, sent_mcConnect hmem,
    Handshake.info, List.append_assoc, Client.extInfo,
    sent_recvVarW_append _ h.length_app, sent_recvVarW_append _ (length_bytesOf _), host_bytesOf_htons]
  show (serverSock, [0x10] ++ (h.app ++ (_ ++ []))) :: _ = _
  rw [List.append_nil]
  rfl

end Loops

/-- The two loops that a handshake can go through. -/
inductive Side where
  | tunnelServer (l : ServerLocals)
  | mcConnect (l : McLocals)

/-- The packets the loop passes on for a handshake, whatever the other threads do before each round. -/
def Side.announces (env : Env) (h : Handshake) (fs : List (Tunnel → Tunnel)) (t : Tunnel) : Side → List Bytes
  | .tunnelServer l => sentTo tunnelSock ((rounds (LavaTunnel.tunnelServer env) fs l).sent (encode h.packets) t)
  | .mcConnect l => sentTo serverSock ((rounds (LavaTunnel.mcConnect env) fs l).sent (encode h.packets) t)

/-- **The number of extensions** agrees with the entries for every handshake of the server, and for no handshake
    of the client. -/
theorem countAgrees_iff_mcConnect (env : Env) (h : Handshake) (fs : List (Tunnel → Tunnel))
    (hfs : fs.length = h.entries.length + 1) (t : Tunnel) (side : Side) :
    CountAgrees (side.announces env h fs t) ↔ ∃ l, side = .mcConnect l := by
  have hlt := h.count_lt
  have hcount : (UInt16.ofNat h.entries.length).toNat = h.entries.length := by
    rw [UInt16.toNat_ofNat', Nat.mod_eq_of_lt hlt]
  cases side with
  | tunnelServer l =>
      -- one less than the number of entries, modulo 65536, is never the number
      have hne : (UInt16.ofNat h.entries.length - 1).toNat ≠ h.entries.length := by
        rw [UInt16.toNat_sub, hcount]
        show (65536 - 1 + h.entries.length) % 65536 ≠ h.entries.length
        omega
      unfold Side.announces
      dsimp only
      rw [sent_handshake_tunnelServer env h hfs t l, countAgrees_iff]
      exact ⟨fun heq => absurd heq hne, fun ⟨_, hl⟩ => absurd hl (by simp)⟩
  | mcConnect l =>
      unfold Side.announces
      dsimp only
      rw [sent_handshake_mcConnect env h hfs t l, countAgrees_iff]
      exact ⟨fun _ => ⟨l, rfl⟩, fun _ => hcount⟩

/-- A single extension. -/
def oneExtension : Handshake where
  app := List.replicate 64 32
  entries := [List.replicate 68 32]
  length_app := rfl
  length_entry := by simp
  count_lt := by decide

/-- A server with a single extension. -/
theorem countAgrees_iff_mcConnect_one :
    CountAgrees (Side.announces {} oneExtension [id, id] {} (.mcConnect {})) :=
  (countAgrees_iff_mcConnect {} oneExtension [id, id] rfl {} (.mcConnect {})).mpr ⟨{}, rfl⟩

/-- The client announces one extension and sends its entry; the server hears of none. -/
theorem count_differs_one : ¬ ∀ (env : Env) (h : Handshake) (fs : List (Tunnel → Tunnel)) (t : Tunnel) (side : Side),
    1 ≤ h.entries.length → h.entries.length ≤ 32767 → fs.length = h.entries.length + 1 →
      CountAgrees (side.announces env h fs t) := by
  intro hall
  have h := hall {} oneExtension [id, id] {} (.tunnelServer {}) (by decide) (by decide) rfl
  unfold Side.announces at h
  dsimp only at h
  rw [sent_handshake_tunnelServer {} oneExtension rfl {} {}, countAgrees_iff] at h
  exact absurd h (by decide)

end LavaTunnel
