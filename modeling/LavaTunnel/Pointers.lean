import LavaTunnel.Helper
import LavaTunnel.Wire.Memory
import LavaTunnel.Wire.Partial

/-!
# `LavaTunnel.Pointers` — `helper.c` with its pointers

Elsewhere a function is handed the text a pointer points to, and its destination is a result. That is right as long as
the destination is a buffer of its own. Here the pointers are addresses in one memory, and the wrappers around `recv`
and `send` are loops over what the calls answer.
-/

namespace LavaTunnel.Pointers

open Wire

/-! ## Strings -/

/-- An `int` where a `size_t` is expected. -/
def sizeT (n : Int) : Nat := (n % 2 ^ 32).toNat

/-- The `length` of `toMCString`. -/
def mcLength (m : Memory) (source : Nat) : Nat :=
  let length := int32 (m.strlen source)
  sizeT (if length > 64 then 64 else length)

/-- Makes string 64 bytes long to please Mojang. -/
def toMCString (m : Memory) (destination source : Nat) : Memory :=
  let m := m.memset destination 32 64
  m.strncpy (mcLength m source) destination source

/-- The addresses it reads: `strlen` and `strncpy` both read the source, after the destination was blanked. -/
def toMCStringReads (m : Memory) (destination source : Nat) : List Nat :=
  let m := m.memset destination 32 64
  m.strlenReads source ++ m.strncpyReads (mcLength m source) source

/-! ## Wrappers -/

/-- A connection: what the calls on it answer, in their order, what the peer sends and how much of it was received,
    and what it was sent. -/
structure Conn where
  answers : Nat → Int
  calls : Nat := 0
  stream : Nat → UInt8 := fun _ => 0
  position : Nat := 0
  sent : Bytes := []

/-- What the next calls answer. -/
def Conn.answered (c : Conn) (n : Nat) : Int := c.answers (c.calls + n)

/-- The next bytes of the stream. -/
def Conn.next (c : Conn) (n : Nat) : Bytes := (List.range n).map (fun i => c.stream (c.position + i))

/-- `recv`: a call that answers with a number has received as many bytes. That they are no more than it was asked for
    is a property of the answers (`Obeys`). -/
def recv (buffer _size : Nat) (s : Conn × Memory) : Int × Conn × Memory :=
  let return_value := s.1.answered 0
  (return_value, { s.1 with calls := s.1.calls + 1, position := s.1.position + return_value.toNat },
    s.2.store buffer (s.1.next return_value.toNat))

/-- `send`: a call that answers with a number has sent as many bytes. -/
def send (m : Memory) (buffer _size : Nat) (c : Conn) : Int × Conn :=
  let return_value := c.answered 0
  (return_value, { c with calls := c.calls + 1, sent := c.sent ++ m.load buffer return_value.toNat })

/-- A wrapper for recv() that fixes recv() not downloading all of a packet. -/
def recvW (fuel buffer size : Nat) (s : Conn × Memory) : Option (Int × Conn × Memory) :=
  transferLoop (fun bytes_so_far missing => recv (buffer + bytes_so_far) missing) size fuel 0 s

/-- The same for send(). -/
def sendW (fuel : Nat) (m : Memory) (buffer size : Nat) (c : Conn) : Option (Int × Conn) :=
  transferLoop (fun bytes_so_far missing => send m (buffer + bytes_so_far) missing) size fuel 0 c

end LavaTunnel.Pointers
