import LavaTunnel.Packets
import LavaTunnel.Wire.Segments
import Mathlib.Data.List.TakeWhile

/-!
# `LavaTunnel.Helper` — `helper.c`, and `tunnelMsg` of `server.c`

The wrappers around `recv`, the packets the tunnel makes up itself, the map offset and the string
functions. A text argument is the memory the pointer points to; a destination buffer is a result.
-/

namespace LavaTunnel

open Wire Wire.Prog

/-! ## Receiving -/

/-- The loop of `recvW`: `buffer` is what has been received. Every round but the last receives at least a
    byte, so `size` rounds are enough. -/
def recvWLoop : Nat → Nat → Bytes → Code (Int × Bytes)
  | 0, _, buffer => pure (buffer.length, buffer)
  | fuel + 1, size, buffer =>
      if buffer.length < size then do
        match ← recvCall (size - buffer.length) with
        | none => pure (-1, buffer)
        | some [] => pure (buffer.length, buffer)
        | some bs => recvWLoop fuel size (buffer ++ bs)
      else pure (buffer.length, buffer)

/-- A wrapper for recv() that fixes recv() not downloading all of a packet: the return value and the
    bytes received. A negative size transfers nothing, like zero. -/
def recvW (size : Nat) : Code (Int × Bytes) := recvWLoop size size []

/-- A variable of `n` bytes after `bs` was received into it. -/
def Env.fill (env : Env) (n : Nat) (bs : Bytes) : Bytes := (bs ++ (env.undef n).drop bs.length).take n

/-- `recvW` into an uninitialised variable of `n` bytes, the return value ignored. -/
def recvVarW (env : Env) (n : Nat) : Code Bytes := do
  let r ← recvW n
  pure (env.fill n r.2)

/-- A plain `recv` into an uninitialised variable of `n` bytes, the return value ignored. -/
def recvVar (env : Env) (n : Nat) : Code Bytes := do
  let r ← recvCall n
  pure (env.fill n (r.getD []))

/-! ## Strings -/

/-- `strlen`; an unterminated buffer counts in full. -/
def strlen (s : Bytes) : Nat := (cstr s).length

/-- Makes string 64 bytes long to please Mojang. -/
def toMCString (source : Bytes) : Bytes :=
  let s := (cstr source).take 64
  s ++ List.replicate (64 - s.length) 32

/-- `tolower` of the C locale. -/
def tolower (c : UInt8) : UInt8 := if 65 ≤ c ∧ c ≤ 90 then c + 32 else c

/-- Write `bs` at the start of a buffer. -/
def overwrite (buf bs : Bytes) : Bytes := bs ++ buf.drop bs.length

/-- Converts string to lowercase, without a terminator. -/
def strLower (destination source : Bytes) : Bytes := overwrite destination ((cstr source).map tolower)

/-- `strcpy`. -/
def strcpy (destination source : Bytes) : Bytes := overwrite destination (cstr source ++ [0])

/-- Where the text ends: before the first two spaces in a row, `none` if there are not any. `past` is the
    byte behind the buffer. -/
def twoSpaces (past : UInt8) : Bytes → Option Nat
  | [] => none
  | [c] => if c = 32 ∧ past = 32 then some 0 else none
  | c :: d :: rest => if c = 32 ∧ d = 32 then some 0 else (twoSpaces past (d :: rest)).map (· + 1)

/-- `nullTerm`: put the terminator at the first two spaces in a row. -/
def nullTerm (env : Env) (source : Bytes) : Bytes :=
  match twoSpaces env.past (cstr source) with
  | some i => source.set i 0
  | none => source

/-- The copy loop of `cleanString`: an `&` is left out together with the character after it. -/
def cleanCopy : Bytes → Bytes
  | [] => []
  | [c] => if c = 38 then [] else [c]
  | c :: d :: rest => if c = 38 then cleanCopy rest else c :: cleanCopy (d :: rest)

/-- Removes color codes and null-terminates string. `size` stays 0 when there are no two spaces in a row,
    and the terminator goes to `size` although fewer characters may have been copied. -/
def cleanString (env : Env) (destination source : Bytes) : Bytes :=
  let size := (twoSpaces env.past (source.take 64)).getD 0
  (overwrite destination (cleanCopy (source.take size))).set size 0

/-- Checks if the beginning of str is equal to equals, over the local copies of the two strings. -/
def strEqual (env : Env) (equals str : Bytes) (caseSensitive : Bool) : Bool :=
  let copy := if caseSensitive then strcpy else strLower
  let equalTo := copy (env.undef 256) equals
  let str2 := copy ((env.var 1).undef 256) str
  (List.range (strlen equalTo)).all (fun i => str2.getD i 0 == equalTo.getD i 0)

/-- `strstr`: whether `needle` occurs in `hay`. -/
def strstr (hay needle : Bytes) : Bool := hay.tails.any (fun s => needle.isPrefixOf s)

/-- `%d` of `sprintf`. -/
def decimal (n : Int) : Bytes := ascii (toString n)

/-! ## Protocol functions -/

/-- A `short` in network byte order, as it lies in memory. -/
def wire (x : Int16) : Bytes := bytesOf (htons x.toUInt16)

/-- A chat message from the tunnel to the client. -/
def tunnelMsg (msg : Bytes) : Code Unit :=
  packet serverSock [.send [0x0d], .send [0], .send (toMCString msg)]

/-- Send a 'teleport' packet to the client. -/
def tunnelTeleport (x y z : Int16) (yaw pitch : UInt8) : Code Unit :=
  packet serverSock [.sendW [0x08], .sendW [255], .sendW (wire x), .sendW (wire y), .sendW (wire z),
    .sendW [yaw], .sendW [pitch]]

/-- Position update. -/
def tunnelMove (x y z : Int16) (yaw pitch : UInt8) : Code Unit :=
  packet tunnelSock [.sendW [0x08], .sendW [255], .sendW (wire x), .sendW (wire y), .sendW (wire z),
    .sendW [yaw], .sendW [pitch]]

/-- Place a block, clientside. -/
def tunnelSetBlock (x y z : Int16) (bid : UInt8) : Code Unit :=
  packet serverSock [.sendW [0x06], .sendW (wire x), .sendW (wire y), .sendW (wire z), .sendW [bid]]

/-- Place a block. Air is sent as removing block 1. -/
def setBlock (x y z : Int16) (bid : UInt8) (sendpos : Bool) : Code Unit := do
  onlyIf (sendpos = true) (do
    tunnelSetBlock x y z bid
    tunnelMove (x * 32) (y * 32) (z * 32) 0 0
    tunnelTeleport (x * 32) (y * 32) (z * 32) 0 0)
  packet tunnelSock [.sendW [0x05], .sendW (wire x), .sendW (wire y), .sendW (wire z),
    .sendW [if bid = 0 then 0 else 1], .sendW [if bid = 0 then 1 else bid]]

/-- Send a message to the server. -/
def sendMessage (pid : UInt8) (msg : Bytes) : Code Unit :=
  packet tunnelSock [.sendW [0x0d], .sendW [pid], .sendW (toMCString msg)]

/-! ## The map -/

/-- The place of a block in the map. -/
def calculateOffset (t : Tunnel) (x y z : Int16) : Int :=
  int32 (int32 (int32 (y.toInt * int32 ((t.lvlx.toNat : Int) * t.lvlz.toNat)) +
    int32 (z.toInt * t.lvlz.toNat)) + x.toInt)

/-- `bOffset`: the block the map holds for a place. -/
def bOffset (t : Tunnel) (x y z : Int16) : UInt8 := t.map (calculateOffset t x y z)

/-! ## What the functions guarantee -/

theorem cstr_eq {s : Bytes} (h : 0 ∉ s) : cstr s = s := by
  unfold cstr
  rw [List.takeWhile_eq_self_iff]
  exact forall_ne_of_notMem h

theorem zero_notMem_cstr (s : Bytes) : 0 ∉ cstr s := by
  intro h
  have hne := List.mem_takeWhile_imp h
  exact absurd hne (by decide)

theorem length_toMCString (s : Bytes) : (toMCString s).length = 64 := by
  unfold toMCString
  simp only [List.length_append, List.length_replicate, List.length_take]
  omega

theorem zero_notMem_toMCString (s : Bytes) : 0 ∉ toMCString s := by
  unfold toMCString
  intro h0
  rcases List.mem_append.mp h0 with h0 | h0
  · exact zero_notMem_cstr s (List.mem_of_mem_take h0)
  · exact absurd (List.eq_of_mem_replicate h0) (by decide)

/-- **A text of 64 bytes goes out as it is just if it has no NUL.** -/
theorem toMCString_eq_iff {s : Bytes} (h : s.length = 64) : toMCString s = s ↔ 0 ∉ s := by
  constructor
  · intro heq
    rw [← heq]
    exact zero_notMem_toMCString s
  · intro h0
    unfold toMCString
    simp only [cstr_eq h0, List.take_of_length_le h.le, h, Nat.sub_self, List.replicate_zero,
      List.append_nil]

@[simp] theorem length_wire (x : Int16) : (wire x).length = 2 := by
  unfold wire
  exact length_bytesOf _

section Local

variable {κ : Type} {kept : Tunnel → κ}

theorem local_tunnelTeleport (x y z : Int16) (yaw pitch : UInt8) :
    (tunnelTeleport x y z yaw pitch).Local kept IsPacket :=
  Local.packet (isPacket_of_length (n := 9) (by simp) (by decide))

theorem local_tunnelMove (x y z : Int16) (yaw pitch : UInt8) :
    (tunnelMove x y z yaw pitch).Local kept IsPacket :=
  Local.packet (isPacket_of_length (n := 9) (by simp) (by decide))

theorem local_tunnelSetBlock (x y z : Int16) (bid : UInt8) :
    (tunnelSetBlock x y z bid).Local kept IsPacket :=
  Local.packet (isPacket_of_length (n := 7) (by simp) (by decide))

theorem local_setBlock (x y z : Int16) (bid : UInt8) (sendpos : Bool) :
    (setBlock x y z bid sendpos).Local kept IsPacket := by
  refine Local.bind (Local.onlyIf ?_) (fun _ => Local.packet ?_)
  · exact Local.bind (local_tunnelSetBlock _ _ _ _) (fun _ =>
      Local.bind (local_tunnelMove _ _ _ _ _) (fun _ => local_tunnelTeleport _ _ _ _ _))
  · exact isPacket_of_length (n := 8) (by simp) (by decide)

theorem local_sendMessage (pid : UInt8) (msg : Bytes) : (sendMessage pid msg).Local kept IsPacket :=
  Local.packet (isPacket_of_length (n := 65) (by simp [length_toMCString]) (by decide))

end Local

theorem length_fill (env : Env) (n : Nat) (bs : Bytes) : (env.fill n bs).length = n := by
  unfold Env.fill
  simp only [List.length_take, List.length_append, List.length_drop, length_undef]
  omega

/-- What was not received into a variable is what was in it. -/
theorem getElem?_fill (env : Env) {n i : Nat} {bs : Bytes} (hi : bs.length ≤ i) (hn : i < n) :
    (env.fill n bs)[i]? = some (env.junk 0 i) := by
  unfold Env.fill Env.undef
  rw [List.getElem?_take_of_lt hn, List.getElem?_append_right hi, List.getElem?_drop,
    Nat.add_sub_cancel' hi, List.getElem?_map, List.getElem?_range hn]
  rfl

/-- A variable that is received in full holds what was received. -/
theorem fill_of_length {env : Env} {n : Nat} {bs : Bytes} (h : bs.length = n) : env.fill n bs = bs := by
  unfold Env.fill
  rw [List.take_append_of_le_length (by omega), List.take_of_length_le (by omega)]

/-! ## `recvW` gets the next bytes of the stream -/

section Recv

variable {T : Type} [Transport T] [Delivers T]

/-- The loop receives what is still missing, or what is left of the stream. -/
theorem run_recvWLoop (fuel size : Nat) (buffer : Bytes) (i : T) (t : Tunnel)
    (hfuel : size ≤ buffer.length + fuel) :
    ∃ got i', got = buffer ++ (Delivers.bytes i).take (size - buffer.length) ∧
      (recvWLoop fuel size buffer).run i t = ⟨some (got.length, got), i', t, []⟩ ∧
      Delivers.bytes i' = (Delivers.bytes i).drop (size - buffer.length) := by
  -- the buffer grows with every call that gets something, until it is full or nothing is left
  induction fuel generalizing buffer i with
  | zero =>
      have h0 : size - buffer.length = 0 := by omega
      exact ⟨buffer, i, by simp [h0], by simp [recvWLoop], by simp [h0]⟩
  | succ fuel ih =>
      unfold recvWLoop
      by_cases hlt : buffer.length < size
      · rw [if_pos hlt, run_recvCall_bind]
        obtain ⟨p, hp, hbytes, hle, hne⟩ := Delivers.recv_bytes i (size - buffer.length)
        rw [hp, ← hbytes]
        generalize (Transport.recv i (size - buffer.length)).2 = i₁ at hbytes
        cases p with
        | nil =>
            have hnil : Delivers.bytes i = [] := by
              by_contra hi
              exact hne (by omega) hi rfl
            rw [List.nil_append] at hbytes
            exact ⟨buffer, i₁, by simp [hbytes, hnil], rfl, by simp [hbytes, hnil]⟩
        | cons b bs =>
            obtain ⟨got, i', hgot, hrun, hi'⟩ := ih (buffer ++ (b :: bs)) i₁ (by simp; omega)
            refine ⟨got, i', ?_, hrun, ?_⟩
            · rw [hgot, List.take_append, List.take_of_length_le hle, List.append_assoc,
                List.length_append, Nat.sub_add_eq]
            · rw [hi', List.drop_append, List.drop_eq_nil_of_le hle, List.nil_append,
                List.length_append, Nat.sub_add_eq]
      · rw [if_neg hlt]
        have h0 : size - buffer.length = 0 := by omega
        exact ⟨buffer, i, by simp [h0], rfl, by simp [h0]⟩

end Recv

/-- **`recvW` does not see segments.** -/
@[simp] theorem segFree_recvW (n : Nat) : (recvW n).SegFree := by
  intro T _ _ i t
  obtain ⟨got, i', hgot, hrun, hi'⟩ := run_recvWLoop n n [] i t (by simp)
  obtain ⟨got', j', hgot', hrun', hj'⟩ := run_recvWLoop n n [] (Delivers.bytes i) t (by simp)
  have heq : got = got' := hgot.trans hgot'.symm
  show ((recvWLoop n n []).run i t).onBytes = (recvWLoop n n []).run (Delivers.bytes i) t
  rw [hrun, hrun', heq]
  show (⟨_, Delivers.bytes i', _, _⟩ : Outcome _ _ _ _) = _
  rw [show Delivers.bytes i' = j' from hi'.trans hj'.symm]

@[simp] theorem segFree_recvVarW (env : Env) (n : Nat) : (recvVarW env n).SegFree :=
  SegFree.bind (segFree_recvW n) (fun _ => SegFree.pure _)

/-- A plain `recv` of one byte does not see segments either. -/
theorem segFree_recvVar (env : Env) {n : Nat} (hn : n ≤ 1) : (recvVar env n).SegFree :=
  SegFree.bind (SegFree.recvCall hn) (fun _ => SegFree.pure _)

section Bytes

variable {α : Type} (env : Env) {n : Nat}

theorem run_recvW_bind (f : Int × Bytes → Code α) (i : Bytes) (t : Tunnel) :
    (recvW n >>= f).run i t = (f ((i.take n).length, i.take n)).run (i.drop n) t := by
  obtain ⟨got, i', rfl, hrun, rfl⟩ := run_recvWLoop n n [] i t (by simp)
  show (recvWLoop n n [] >>= f).run i t = _
  rw [run_bind_of hrun]
  rfl

theorem run_recvVarW_bind (f : Bytes → Code α) (i : Bytes) (t : Tunnel) :
    (recvVarW env n >>= f).run i t = (f (env.fill n (i.take n))).run (i.drop n) t := by
  unfold recvVarW
  rw [bind_assoc', run_recvW_bind]
  rfl

theorem run_recvVar_bind (f : Bytes → Code α) (i : Bytes) (t : Tunnel) :
    (recvVar env n >>= f).run i t = (f (env.fill n (i.take n))).run (i.drop n) t := rfl

/-- A field that is there is received. -/
theorem run_recvVarW_append {a : Bytes} (ha : a.length = n) (f : Bytes → Code α) (rest : Bytes)
    (t : Tunnel) : (recvVarW env n >>= f).run (a ++ rest) t = (f a).run rest t := by
  rw [run_recvVarW_bind, ← ha, List.take_left, List.drop_left, fill_of_length rfl]

theorem run_recvVar_append {a : Bytes} (ha : a.length = n) (f : Bytes → Code α) (rest : Bytes)
    (t : Tunnel) : (recvVar env n >>= f).run (a ++ rest) t = (f a).run rest t := by
  rw [run_recvVar_bind, ← ha, List.take_left, List.drop_left, fill_of_length rfl]

end Bytes

end LavaTunnel
