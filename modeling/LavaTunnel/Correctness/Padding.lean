import LavaTunnel.Pointers
import LavaTunnel.Correctness.Chat

/-!
# `LavaTunnel.Correctness.Padding` — `toMCString` with a buffer of its own, and without

With a buffer of its own `toMCString` cuts a text to 64 characters and fills it up with spaces. What it has made it
leaves alone, so a chat message that is no command goes to the server as it came.

In place it blanks the text before it measures it. The 64 spaces have no terminator, so `strlen` runs out of the
buffer, and the spaces are copied onto themselves: the text is lost.
-/

namespace LavaTunnel

open Wire Wire.Prog

namespace Pointers

variable {m : Memory} {destination source b n : Nat}

theorem mcLength_eq (m : Memory) (source : Nat) : mcLength m source = min (m.strlen source) 64 := by
  have hsmall := m.strlen_lt source
  have hint : int32 (m.strlen source) = m.strlen source := int32_of_range (by omega) (by omega)
  unfold mcLength sizeT
  rw [hint]
  dsimp only
  split <;> omega

/-- The `n` bytes at `source` are a string and its terminator, or 64 bytes without. -/
structure IsText (m : Memory) (source n : Nat) : Prop where
  inside : source + n ≤ m.size
  text : 0 ∈ m.load source n ∨ 64 ≤ n

/-- What is copied of a text. -/
theorem load_mcLength (h : IsText m source n) : mcLength m source ≤ n ∧
    m.load source (mcLength m source) = (cstr (m.load source n)).take 64 := by
  rw [mcLength_eq]
  by_cases h0 : 0 ∈ m.load source n
  · -- the string ends inside of the `n` bytes
    have hcstr : cstr (m.load source n) = m.load source (m.strlen source) := by
      rw [Memory.load_strlen]
      exact Memory.takeWhile_load h0
    have hshort : m.strlen source ≤ n := by
      have hlen : (m.load source (m.strlen source)).length ≤ (m.load source n).length := by
        rw [← hcstr]
        exact (List.takeWhile_prefix _).length_le
      rw [Memory.load_strlen, Memory.length_load h.inside] at hlen
      exact hlen
    refine ⟨by omega, ?_⟩
    rw [hcstr]
    rcases Nat.le_total (m.strlen source) 64 with hle | hle
    · rw [Nat.min_eq_left hle, List.take_of_length_le]
      exact Nat.le_trans (List.length_take_le _ _) hle
    · rw [Nat.min_eq_right hle, Memory.load_load hle]
  · have h64 := h.text.resolve_left h0
    have hlong : n ≤ m.strlen source := Memory.le_strlen h.inside h0
    rw [Nat.min_eq_right (by omega), cstr_eq h0, Memory.load_load h64]
    exact ⟨h64, rfl⟩

/-- **Into a buffer of its own** a text is cut to 64 characters and filled up with spaces. Nothing else changes. -/
theorem toMCString_apart (htext : IsText m source n)
    (hapart : source + n ≤ destination ∨ destination + 64 ≤ source) :
    toMCString m destination source = m.store destination (LavaTunnel.toMCString (m.load source n)) := by
  have hblank : (m.memset destination 32 64).load source n = m.load source n :=
    Memory.load_store_of_apart (by rw [List.length_replicate]; exact hapart)
  have htext' : IsText (m.memset destination 32 64) source n := by
    refine ⟨?_, ?_⟩
    · rw [Memory.size_memset]
      exact htext.inside
    · rw [hblank]
      exact htext.text
  obtain ⟨hle, hcopied⟩ := load_mcLength htext'
  have hinside := htext'.inside
  have h64 : mcLength (m.memset destination 32 64) source ≤ 64 := by
    rw [mcLength_eq]
    exact Nat.min_le_right _ _
  have hcopy := Memory.strncpy_eq_store (m := m.memset destination 32 64) (d := destination) (s := source)
    (n := mcLength (m.memset destination 32 64) source) (by omega) (by omega)
    (Memory.zero_notMem_load (by rw [mcLength_eq]; exact Nat.min_le_left _ _))
  have hlen : ((cstr (m.load source n)).take 64).length ≤ (List.replicate 64 (32 : UInt8)).length := by
    rw [List.length_take, List.length_replicate]
    exact Nat.min_le_left _ _
  show (m.memset destination 32 64).strncpy _ destination source = _
  rw [hcopy, hcopied, hblank]
  unfold Memory.memset LavaTunnel.toMCString
  rw [Memory.store_over hlen, List.drop_replicate]

theorem load_blank (hb : b + 64 ≤ m.size) : (m.memset b 32 64).load b 64 = List.replicate 64 32 :=
  Memory.load_store List.length_replicate hb

/-- There is no terminator in a buffer of spaces. -/
theorem strlen_blank (hb : b + 64 ≤ m.size) : 64 ≤ (m.memset b 32 64).strlen b := by
  apply Memory.le_strlen
  · rw [Memory.size_memset]
    exact hb
  · rw [load_blank hb]
    decide

/-- **In place** it leaves nothing but spaces. -/
theorem toMCString_self (hb : b + 64 ≤ m.size) : toMCString m b b = m.memset b 32 64 := by
  have hlong := strlen_blank hb
  have hlen : mcLength (m.memset b 32 64) b = 64 := by
    rw [mcLength_eq, Nat.min_eq_right hlong]
  show (m.memset b 32 64).strncpy (mcLength (m.memset b 32 64) b) b b = _
  rw [hlen, Memory.strncpy_eq_store (Or.inl (Nat.le_refl b)) (by rw [Memory.size_memset]; exact hb)
    (Memory.zero_notMem_load hlong)]
  exact Memory.store_load _ b 64

/-- And it reads the byte behind the buffer. -/
theorem mem_reads_self (hb : b + 64 ≤ m.size) : b + 64 ∈ toMCStringReads m b b := by
  have hlong := strlen_blank hb
  apply List.mem_append_left
  apply List.mem_range'_1.mpr
  omega

end Pointers

/-! ## A text that was padded -/

theorem toMCString_toMCString (s : Bytes) : toMCString (toMCString s) = toMCString s :=
  (toMCString_eq_iff (length_toMCString s)).mpr (zero_notMem_toMCString s)

theorem sendMessage_toMCString (pid : UInt8) (s : Bytes) : sendMessage pid (toMCString s) = sendMessage pid s := by
  unfold sendMessage
  rw [toMCString_toMCString]

/-- What does not start with an apostrophe is no command. -/
theorem isCommand_of_head {env : Env} {message : Bytes} (h : (Server.cleanMessage env message).head? ≠ some 39) :
    Server.isCommand env message = false := by
  have hne : ((Server.cleanMessage env message).headD 0 == 39) = false := by
    rw [List.headD_eq_head?_getD]
    cases hhead : (Server.cleanMessage env message).head? with
    | none => rfl
    | some c =>
        rw [hhead] at h
        have hc : c ≠ 39 := fun hc => h (congrArg some hc)
        simpa using hc
  unfold Server.isCommand
  rw [hne]
  rfl

/-- **Chat is transparent.** A text is cut to 64 characters and padded with spaces whatever memory it lies in, as long
    as the destination is apart from it; a padded text is left alone; and a message of 64 characters that is no command
    goes to the server as it came. -/
theorem chat_transparent :
    (∀ (m : Memory) (destination source n : Nat), destination + 64 ≤ m.size → Pointers.IsText m source n →
      (source + n ≤ destination ∨ destination + 64 ≤ source) →
        (Pointers.toMCString m destination source).load destination 64 = toMCString (m.load source n) ∧
        ∀ i, i < destination ∨ destination + 64 ≤ i →
          (Pointers.toMCString m destination source).bytes[i]? = m.bytes[i]?) ∧
    (∀ s, toMCString s =
      (cstr s).take 64 ++ List.replicate (64 - ((cstr s).take 64).length) 32) ∧
    (∀ s, toMCString (toMCString s) = toMCString s) ∧
    (∀ pid s, sendMessage pid (toMCString s) = sendMessage pid s) ∧
    ∀ (env : Env) (l : ServerLocals) (what : UInt8) (message rest : Bytes) (t : Tunnel), message.length = 64 →
      0 ∉ message → (Server.cleanMessage env message).head? ≠ some 39 → t.gimped = false →
        (tunnelServer env l).run (0x0d :: what :: (message ++ rest)) t =
          ⟨some l, rest, t, [(tunnelSock, [0x0d]), (tunnelSock, [what]), (tunnelSock, message)]⟩ ∧
        (tunnelServer env l).sent (0x0d :: what :: (message ++ rest)) t =
          [(tunnelSock, 0x0d :: what :: message)] := by
  refine ⟨fun m destination source n hdestination htext hapart => ?_, fun s => rfl, toMCString_toMCString,
    sendMessage_toMCString, fun env l what message rest t hlen h0 hhead hg => ?_⟩
  · have hpadded := length_toMCString (m.load source n)
    rw [Pointers.toMCString_apart htext hapart]
    refine ⟨?_, fun i hi => ?_⟩
    · exact Memory.load_store hpadded hdestination
    · rw [Memory.getElem?_store, hpadded, if_neg (by omega)]
  · have hsame : toMCString message = message := (toMCString_eq_iff hlen).mpr h0
    constructor
    · rw [run_round_said env l what hlen, run_bind, run_said_chat (isCommand_of_head hhead) hg, run_sendMessage, hsame]
      rfl
    · rw [sent_round_said env l what hlen, sent_said_chat (isCommand_of_head hhead) hg, sent_sendMessage, hsame]

/-- A greeting, with a buffer of 64 bytes behind it and something behind that. -/
def greetingMemory : Memory := ⟨ascii "hi" ++ 0 :: List.replicate 67 7, by decide⟩

/-- The greeting is padded in the buffer and nowhere else, and arrives. -/
theorem transparent_hi :
    ((Pointers.toMCString greetingMemory 3 0).load 3 64 = padded (ascii "hi") ∧
        ∀ i, i < 3 ∨ 3 + 64 ≤ i → (Pointers.toMCString greetingMemory 3 0).bytes[i]? = greetingMemory.bytes[i]?) ∧
      (tunnelServer {} {}).sent (0x0d :: 0 :: (padded (ascii "hi") ++ [])) {} =
        [(tunnelSock, 0x0d :: 0 :: padded (ascii "hi"))] := by
  have hload : toMCString (greetingMemory.load 0 3) = padded (ascii "hi") := by decide +kernel
  have hsource : Pointers.IsText greetingMemory 0 3 := ⟨by decide, Or.inl (by decide)⟩
  obtain ⟨htext, hrest⟩ := chat_transparent.1 greetingMemory 3 0 3 (by decide) hsource (Or.inl (by decide))
  exact ⟨⟨htext.trans hload, hrest⟩,
    (chat_transparent.2.2.2.2 {} {} 0 (padded (ascii "hi")) [] {} (by decide) (by decide) (by decide) rfl).2⟩

/-! ## In place -/

/-- The buffer at `b` holds the text that a fresh buffer would, and nothing outside of it was read. -/
structure InPlaceSafe (m : Memory) (b : Nat) : Prop where
  text : (Pointers.toMCString m b b).load b 64 = toMCString (m.load b 64)
  reads : ∀ a ∈ Pointers.toMCStringReads m b b, b ≤ a ∧ a < b + 64

/-- What is left in the buffer. -/
theorem load_toMCString_self {m : Memory} {b : Nat} (hb : b + 64 ≤ m.size) :
    (Pointers.toMCString m b b).load b 64 = List.replicate 64 32 := by
  rw [Pointers.toMCString_self hb]
  exact Pointers.load_blank hb

/-- Only spaces are padded to spaces. -/
theorem toMCString_eq_spaces_iff {s : Bytes} (h : (cstr s).length ≤ 64) :
    List.replicate 64 32 = toMCString s ↔ ∀ c ∈ cstr s, c = 32 := by
  unfold toMCString
  rw [List.take_of_length_le h, eq_comm, List.eq_replicate_iff]
  constructor
  · intro hall c hc
    exact hall.2 c (List.mem_append_left _ hc)
  · intro hall
    refine ⟨by simp; omega, fun c hc => ?_⟩
    rcases List.mem_append.mp hc with hc | hc
    · exact hall c hc
    · exact List.eq_of_mem_replicate hc

/-- **In place the text is lost.** Whatever string is in the buffer, the byte behind the buffer is read, and what is
    left is what the kick sends when the server has gone: spaces, which is right for no text but spaces. -/
theorem toMCString_inPlace (m : Memory) (b : Nat) (hb : b + 64 ≤ m.size) :
    ¬ InPlaceSafe m b ∧ b + 64 ∈ Pointers.toMCStringReads m b b ∧
      ((Pointers.toMCString m b b).load b 64 = toMCString (m.load b 64) ↔ ∀ c ∈ cstr (m.load b 64), c = 32) ∧
      ∀ (i : Bytes) (t : Tunnel), Client.disconnected.run i t =
        ⟨none, i, t, [(serverSock, [0x0e]), (serverSock, (Pointers.toMCString m b b).load b 64)]⟩ := by
  have hread := Pointers.mem_reads_self hb
  have hblank := load_toMCString_self hb
  have hshort : (cstr (m.load b 64)).length ≤ 64 := by
    have hle : (cstr (m.load b 64)).length ≤ (m.load b 64).length := (List.takeWhile_prefix _).length_le
    rwa [Memory.length_load hb] at hle
  refine ⟨fun hsafe => ?_, hread, ?_, fun i t => ?_⟩
  · have hinside := hsafe.reads _ hread
    omega
  · rw [hblank]
    exact toMCString_eq_spaces_iff hshort
  · rw [hblank]
    rfl

/-- The memory when the server has gone: the text, its terminator, and the rest of the buffer. -/
def disconnectMsg : Memory := ⟨ascii "[LavaTunnel] Disconnected!" ++ List.replicate 39 0, by decide⟩

theorem disconnectMsg_inPlace : ¬ InPlaceSafe disconnectMsg 0 ∧ 64 ∈ Pointers.toMCStringReads disconnectMsg 0 0 :=
  have h := toMCString_inPlace disconnectMsg 0 (by decide)
  ⟨h.1, h.2.1⟩

/-- The text of the kick is lost. -/
theorem disconnectMsg_lost :
    cstr (disconnectMsg.load 0 64) = ascii "[LavaTunnel] Disconnected!" ∧
      (Pointers.toMCString disconnectMsg 0 0).load 0 64 = List.replicate 64 32 ∧
      (Pointers.toMCString disconnectMsg 0 0).load 0 64 ≠ toMCString (disconnectMsg.load 0 64) ∧
      64 ∈ Pointers.toMCStringReads disconnectMsg 0 0 ∧ ¬ InPlaceSafe disconnectMsg 0 := by
  have hblank : (Pointers.toMCString disconnectMsg 0 0).load 0 64 = List.replicate 64 32 :=
    load_toMCString_self (by decide)
  have hlost : (Pointers.toMCString disconnectMsg 0 0).load 0 64 ≠ toMCString (disconnectMsg.load 0 64) := by
    rw [hblank]
    decide
  exact ⟨by decide, hblank, hlost, Pointers.mem_reads_self (b := 0) (by decide), fun hsafe => hlost hsafe.text⟩

end LavaTunnel
