import LavaTunnel.CInt
import LavaTunnel.Wire.Prog

/-!
# `LavaTunnel.Tunnel` — the state the threads share (`tunnel.h`, `CPE.h`)

The globals of the program, one field each under the name of the source. Left out is what no thread
reads: the console, the HTTP login, and the handles of libraries. Three things stand for memory rather
than for values:

* `player` is indexed by `Int`, because the code also indexes it below zero;
* `map` gives the byte at every offset from the map pointer, `mapAlloc` says how many are allocated;
* `gimp` is the flat memory of the 256-byte gimp slots.

A fixed-size text buffer is a list of its bytes; `cstr` is the C string in it.
-/

namespace LavaTunnel

open Wire

/-- The two sockets: `tunnelSock` goes to the server, `serverSock` to the client. -/
inductive Socket where
  | tunnelSock
  | serverSock
deriving DecidableEq

export Socket (tunnelSock serverSock)

/-- Stores data about players. `mode`: 0 = ignore, 1 = following, 2 = plotmotioning. -/
structure Player where
  pid : UInt8 := 0
  username : Bytes := List.replicate 64 0
  x : UInt16 := 0
  y : UInt16 := 0
  z : UInt16 := 0
  yaw : UInt8 := 0
  pitch : UInt8 := 0
  mode : Int := 0
  valid : Bool := false
  ignore : Bool := false

/-- Stores data about the user connected to the tunnel: the position known to the server, and the one of
    the client while hidden. -/
structure User where
  x : Int16 := 0
  y : Int16 := 0
  z : Int16 := 0
  yaw : UInt8 := 0
  pitch : UInt8 := 0
  hx : Int16 := 0
  hy : Int16 := 0
  hz : Int16 := 0
  hyaw : UInt8 := 0
  hpitch : UInt8 := 0

/-- Stores info for copy. -/
structure Copy where
  x1 : UInt16 := 0
  y1 : UInt16 := 0
  z1 : UInt16 := 0
  x2 : UInt16 := 0
  y2 : UInt16 := 0
  z2 : UInt16 := 0
  size : Int := 0
  chunkName : Bytes := []
  place : Bool := false
  start : Bool := false
  halt : Bool := false

/-- Stores info for paste. -/
structure Paste where
  x : UInt16 := 0
  y : UInt16 := 0
  z : UInt16 := 0
  chunkName : Bytes := []
  place : Bool := false
  start : Bool := false
  halt : Bool := false

/-- Stores info for cuboids. -/
structure Cuboid where
  x1 : UInt16 := 0
  y1 : UInt16 := 0
  z1 : UInt16 := 0
  x2 : UInt16 := 0
  y2 : UInt16 := 0
  z2 : UInt16 := 0
  block : UInt8 := 0
  place : Bool := false
  start : Bool := false
  halt : Bool := false
  type : Int := 0
  zlimit : Bool := false
  getBlock : Bool := false
  zspeed : Int := 0

/-- Which protocol extensions one side has announced. -/
structure CPE where
  blockDefs : Bool := false
  blockDefsExt : Bool := false
  extEntityPos : Bool := false
  fastMap : Bool := false
  extText : Bool := false
  extBlocks : Bool := false
deriving DecidableEq

/-- The globals. -/
structure Tunnel where
  haxType : Bytes := []
  hax : Int := 0
  useCPE : Int := 1
  plotBlock : UInt8 := 0
  paint : Bool := false
  paintBid : UInt8 := 0
  hide : Bool := false
  gimped : Bool := false
  zPlace : Bool := false
  points : Int := 0
  mppass : Bytes := []
  username : Bytes := []
  motd : Bytes := []
  servername : Bytes := []
  tunnelUser : Bytes := List.replicate 64 0
  unused : UInt8 := 0
  ignores : Nat → Bytes := fun _ => []
  ignoreN : Int := 0
  gimp : Nat → UInt8 := fun _ => 0
  gimpN : Int := 0
  player : Int → Player := fun _ => {}
  user : User := {}
  copy : Copy := {}
  paste : Paste := {}
  cuboid : Cuboid := {}
  mapC : Bytes := []
  mapSize : Int := 0
  map : Int → UInt8 := fun _ => 0
  mapAlloc : Nat := 0
  lvlx : UInt16 := 0
  lvly : UInt16 := 0
  lvlz : UInt16 := 0
  /-- What the server told the tunnel. -/
  cpeClient : CPE := {}
  /-- What the client told the tunnel. -/
  cpeServer : CPE := {}
  /-- The disk: the contents of a file, if it exists. -/
  files : Bytes → Option Bytes := fun _ => none
  /-- The position of `rand()` in its sequence. -/
  rands : Nat := 0
  /-- Whether the client has logged in, which starts `mcConnect` and `builder`. -/
  loggedIn : Bool := false

/-- The status codes and the output of zlib. `inflate` gets the window bits, the compressed bytes and the
    room for output. -/
structure Zlib where
  inflateInit2 : Int → Int
  inflate : Int → Bytes → Nat → Int × Bytes
  inflateEnd : Int → Bytes → Nat → Int

/-- `inflateEnd` frees the stream and reports `Z_OK` or `Z_STREAM_ERROR`. -/
def Zlib.EndDocumented (z : Zlib) : Prop :=
  ∀ bits input room, z.inflateEnd bits input room = 0 ∨ z.inflateEnd bits input room = -2

/-- What the code does not determine: the contents of uninitialised variables, byte by byte (`junk` for each variable
    of a function, `buffers` for each buffer of `strEqual` in each call of a loop, and `position` for the variables that
    `tunnelServer` receives a position into), the byte behind a 64-byte text buffer (`past`), the stack behind the paste
    buffer (`stack`), `rand()` and zlib. The memory is what a turn finds; what earlier packets and calls have left in it
    differs from turn to turn, and `turnsWith` is a run in which each turn finds its own. -/
structure Env where
  junk : Nat → Nat → UInt8 := fun _ _ => 0
  buffers : Nat → Nat → UInt8 := fun _ _ => 0
  position : Nat → Nat → UInt8 := fun _ _ => 0
  past : UInt8 := 0
  stack : Nat → UInt8 := fun _ => 0
  rand : Nat → Nat := fun _ => 0
  zlib : Zlib := ⟨fun _ => 0, fun _ _ _ => (1, []), fun _ _ _ => 0⟩

/-- A piece of a thread's code. -/
abbrev Code (α : Type) := Prog Tunnel Socket α

/-- The C string in a buffer: everything before the first NUL. -/
def cstr (buf : Bytes) : Bytes := buf.takeWhile (· ≠ 0)

/-- The variables from the `k`-th on. -/
def Env.var (env : Env) (k : Nat) : Env := { env with junk := fun j => env.junk (k + j) }

/-- The variables of a position of the client. They keep what the position before it left in them. -/
def Env.held (env : Env) : Env := { env with junk := env.position }

/-- The buffers of `strEqual` in its call for entry `i`. They keep what the call before left in them. -/
def Env.call (env : Env) (i : Int) : Env := { env with junk := fun j => env.buffers (2 * (i + 1).toNat + j) }

/-- An uninitialised variable of `n` bytes. -/
def Env.undef (env : Env) (n : Nat) : Bytes := (List.range n).map (env.junk 0)

@[simp] theorem length_undef (env : Env) (n : Nat) : (env.undef n).length = n := by
  simp [Env.undef]

/-- `player[i]` changed by `f`. -/
def Tunnel.setPlayer (t : Tunnel) (i : Int) (f : Player → Player) : Tunnel :=
  { t with player := Function.update t.player i (f (t.player i)) }

/-- Both sides announced `flag`. -/
def Tunnel.negotiated (t : Tunnel) (flag : CPE → Bool) : Bool := flag t.cpeClient && flag t.cpeServer

end LavaTunnel
