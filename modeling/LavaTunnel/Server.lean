import LavaTunnel.Client
import LavaTunnel.Command

/-!
# `LavaTunnel.Server` — `tunnelServer` (`server.c`)

The thread that is a server to the client behind the tunnel: each round of its loop receives the id of a
packet and the payload and sends the packet to the server, unless it is for the tunnel itself: a block
click while points are being set, a position while hidden, a command. `tunnelServer` is one round.
-/

namespace LavaTunnel

open Wire Wire.Prog

/-- The local of `tunnelServer` that outlives a round: whether the client has logged in. -/
structure ServerLocals where
  fucked : Bool := false

namespace Server

/-! ## The packets that are passed on -/

def clickDistance : Relay := ⟨0x12, true, [wrapped 2]⟩

def customBlocks : Relay := ⟨0x13, true, [wrapped 1]⟩

def holdThis : Relay := ⟨0x14, true, [wrapped 1, wrapped 1]⟩

def extAddPlayerName : Relay := ⟨0x16, false, [plain 2, wrapped 64, wrapped 64, wrapped 64, plain 1]⟩

def extRemovePlayerName : Relay := ⟨0x18, false, [plain 2]⟩

def envSetColor : Relay := ⟨0x19, false, [plain 1, plain 2, plain 2, plain 2]⟩

def makeSelection : Relay :=
  ⟨0x1A, false, [plain 1, plain 64, plain 2, plain 2, plain 2, plain 2, plain 2, plain 2, plain 2, plain 2,
    plain 2, plain 2]⟩

def removeSelection : Relay := ⟨0x1B, false, [plain 1]⟩

def setBlockPermission : Relay := ⟨0x1C, true, [wrapped 1, wrapped 1, wrapped 1]⟩

def changeModel : Relay := ⟨0x1D, false, [plain 1, wrapped 64]⟩

/-- Only one of the three levels. -/
def envMapAppearence : Relay := ⟨0x1E, false, [wrapped 64, plain 1, plain 1, plain 2]⟩

def envSetWeatherType : Relay := ⟨0x1F, true, [wrapped 1]⟩

/-- With `buttondown`, which the other direction does not have. -/
def playerClicked : Relay :=
  ⟨0x22, true, [wrapped 1, wrapped 1, wrapped 1, wrapped 2, wrapped 2, wrapped 1, wrapped 2, wrapped 2,
    wrapped 2, wrapped 1]⟩

/-- The packets that are passed on as they are, in buffers as wide as what is received. -/
def relays : List Relay :=
  [clickDistance, customBlocks, holdThis, extAddPlayerName, extRemovePlayerName, envSetColor, makeSelection,
    removeSelection, setBlockPermission, changeModel, envMapAppearence, envSetWeatherType, playerClicked]

/-! ## Login -/

/-- Login: the threads of the tunnel are started. -/
def login (env : Env) : Code ServerLocals := do
  let _shit ← recvVarW env 1
  let name ← recvVarW (env.var 1) 64
  let _pass ← recvVarW (env.var 2) 64
  let r ← recvW 1
  update (fun t => { t with
    unused := r.2.headD t.unused
    tunnelUser := cleanString env t.tunnelUser name
    loggedIn := true
    cuboid := { t.cuboid with start := false } })
  pure { fucked := true }

/-! ## Block clicks -/

/-- A click while the cuboid waits for points. -/
def cuboidPoint (x y z : UInt16) (blocktype : UInt8) : Code Unit := do
  let t ← getState
  if t.cuboid.place then
    if t.points = 0 then
      update (fun t => { t with cuboid := { t.cuboid with x1 := x, y1 := y, z1 := z }, points := 1 })
      tunnelMsg (lava "z: First point.")
    else if t.points = 1 then
      update (fun t => { t with
        cuboid := { t.cuboid with
          x2 := x, y2 := y, z2 := z
          block := if t.cuboid.getBlock then blocktype else t.cuboid.block
          place := false, start := true }
        points := 0
        zPlace := false })
      tunnelMsg (lava "z: Second point, starting cuboid!")

/-- A click while the paste waits for its point. -/
def pastePoint (x y z : UInt16) : Code Unit := do
  let t ← getState
  if t.paste.place then
    update (fun t => { t with paste := { t.paste with x := x, y := y, z := z } })
    tunnelMsg (lava "paste: pasting " ++ cstr t.paste.chunkName)
    update (fun t => { t with paste := { t.paste with place := false, start := true }, zPlace := false })

/-- A click while the copy waits for points. -/
def copyPoint (x y z : UInt16) : Code Unit := do
  let t ← getState
  if t.copy.place then
    if t.points = 0 then
      update (fun t => { t with copy := { t.copy with x1 := x, y1 := y, z1 := z }, points := 1 })
      tunnelMsg (lava "copy: First point.")
    else if t.points = 1 then
      update (fun t => { t with
        copy := { t.copy with x2 := x, y2 := y, z2 := z, place := false, start := true }
        points := 0
        zPlace := false })
      tunnelMsg (lava "copy: Second point, copying")

/-- Change the pointer block back to its original block clientside. The coordinates are those of the wire,
    and `tunnelSetBlock` turns them once more. -/
def revert (x y z : Bytes) : Code Unit := do
  let t ← getState
  tunnelSetBlock (ofBytes x).toInt16 (ofBytes y).toInt16 (ofBytes z).toInt16
    (bOffset t (host x).toInt16 (host y).toInt16 (host z).toInt16)

/-- A click that sets a point: the three operations are asked in turn. -/
def point (x y z : Bytes) (blocktype : UInt8) : Code Unit := do
  cuboidPoint (host x) (host y) (host z) blocktype
  pastePoint (host x) (host y) (host z)
  copyPoint (host x) (host y) (host z)
  revert x y z
  revert x y z
  revert x y z

/-- Set block. -/
def setBlockClick (env : Env) : Code Unit := do
  let x ← recvVarW env 2
  let y ← recvVarW (env.var 1) 2
  let z ← recvVarW (env.var 2) 2
  let mode ← recvVarW (env.var 3) 1
  let blocktype ← recvVarW (env.var 4) 1
  let t ← getState
  if t.zPlace then point x y z (byte blocktype)
  else
    packet tunnelSock [.sendW [0x05], .sendW x, .sendW y, .sendW z, .sendW (if t.paint then [1] else mode),
      .sendW (if t.paint then [t.paintBid] else blocktype)]

/-! ## Position and chat -/

/-- Pos update. While hidden the position is kept but not sent. -/
def posUpdate (env : Env) : Code Unit := do
  let pid ← recvVarW env.held 1
  let x ← recvVarW (env.held.var 1) 2
  let y ← recvVarW (env.held.var 2) 2
  let z ← recvVarW (env.held.var 3) 2
  let yaw ← recvVarW (env.held.var 4) 1
  let pitch ← recvVarW (env.held.var 5) 1
  let t ← getState
  if t.hide = false then
    update (fun t => { t with user := { t.user with
      x := (host x).toInt16, y := (host y).toInt16, z := (host z).toInt16
      yaw := byte yaw, pitch := byte pitch } })
    packet tunnelSock [.sendW [0x08], .sendW pid, .sendW x, .sendW y, .sendW z, .sendW yaw, .sendW pitch]
  else
    update (fun t => { t with user := { t.user with
      hx := (host x).toInt16, hy := (host y).toInt16, hz := (host z).toInt16
      hyaw := byte yaw, hpitch := byte pitch } })

/-- `n` bytes of the gimp table. -/
def gimpText (t : Tunnel) (offset n : Nat) : Bytes := (List.range n).map (fun i => t.gimp (offset + i))

/-- Send a gimp text, in pieces if it is long. One more piece is sent than there are. -/
def sendGimp (t : Tunnel) (slot : Nat) (what : UInt8) : Code Unit :=
  let size := strlen (gimpText t slot 256) + strlen (t.player (-1)).username
  let n := (size + 63) / 64
  if 64 ≤ size then
    forEach (fun i => sendMessage (if i < n then 1 else 0)
      (toMCString (strncpy64 (gimpText t (slot + 64 * i) 64)))) (List.range (n + 1))
  else sendMessage what (toMCString (gimpText t slot 256))

/-- A gimped message: a random text instead. With a single text the remainder by zero ends the program. -/
def gimpMessage (env : Env) (what : UInt8) : Code Unit := do
  let r ← rand env
  let t ← getState
  if t.gimpN = 1 then Prog.exit
  else sendGimp t (256 * ((r : Int).tmod (t.gimpN - 1) + 1).toNat) what

/-- The text of a chat message as a command is looked for in it. -/
def cleanMessage (env : Env) (message : Bytes) : Bytes := cstr (cleanString env (env.undef 64) message)

/-- A message is a command if it starts with an apostrophe and has more. -/
def isCommand (env : Env) (message : Bytes) : Bool :=
  (cleanMessage env message).headD 0 == 39 && decide (2 ≤ (cleanMessage env message).length)

/-- A command from the chat. -/
def chatCommand (env : Env) (command : Bytes) : Code Unit := do
  let known ← commandFunc env command
  onlyIf (known = false) (tunnelMsg (lava "Unknown command."))

/-- Chat message. -/
def chatMessage (env : Env) : Code Unit := do
  let what ← recvVarW (env.var 1) 1
  let message ← recvVarW (env.var 2) 64
  if isCommand env message then chatCommand env ((cleanMessage env message).drop 1)
  else do
    let t ← getState
    if t.gimped ∧ byte message ≠ 47 then onlyIf (byte what = 0) (gimpMessage env (byte what))
    else sendMessage (byte what) message

/-! ## CPE -/

/-- ExtInfo: one extension less. -/
def extInfo (env : Env) : Code Unit := do
  let app ← recvVarW env 64
  let count ← recvVarW (env.var 1) 2
  packet tunnelSock [.sendW [0x10], .sendW app, .sendW (bytesOf (htons (host count - 1)))]

/-- ExtEntry. -/
def extEntry (env : Env) : Code Unit := do
  let extname ← recvVarW env 64
  let version ← recvVarW (env.var 1) 4
  update (fun t => { t with cpeServer := Client.announce env extname t.cpeServer })
  packet tunnelSock [.sendW [0x11], .sendW extname, .sendW version]

/-- Text hot key. `keymods` is received but not sent. -/
def textHotKey (env : Env) : Code Unit := do
  let label ← recvVarW env 64
  let action ← recvVarW (env.var 1) 64
  let keycode ← recvVarW (env.var 2) 4
  let _keymods ← recvVarW (env.var 3) 1
  packet tunnelSock [.sendW [0x15], .sendW label, .sendW action, .sendW keycode]

/-- ExtAddEntity2. `entityid` is received but not sent. -/
def extAddEntity2 (env : Env) : Code Unit := do
  let _entityid ← recvVar env 1
  let ingame ← recvVarW (env.var 1) 64
  let skinname ← recvVarW (env.var 2) 64
  let x ← recvVarW (env.var 3) 2
  let y ← recvVarW (env.var 4) 2
  let z ← recvVarW (env.var 5) 2
  let yaw ← recvVar (env.var 6) 1
  let pitch ← recvVar (env.var 7) 1
  packet tunnelSock [.send [0x21], .sendW ingame, .sendW skinname, .sendW x, .sendW y, .sendW z, .send yaw,
    .send pitch]

/-- Two way ping. What was received is overwritten with the uninitialised `data`. -/
def twoWayPing (env : Env) : Code Unit := do
  let ping ← recvVarW (env.var 1) 1
  let _buf ← recvVarW (env.var 2) 2
  packet tunnelSock [.sendW [43], .sendW ping, .sendW (env.undef 2)]

/-! ## The loop -/

/-- The handlers, each under its id. -/
def handlers (env : Env) : List (UInt8 × Code Unit) :=
  relays.map (fun r => (r.id, relay env tunnelSock r)) ++
    [(0x05, setBlockClick env), (0x08, posUpdate env), (0x0d, chatMessage env), (0x10, extInfo env),
      (0x11, extEntry env), (0x15, textHotKey env), (0x21, extAddEntity2 env), (43, twoWayPing env)]

/-- What follows the id of a packet. A second login is not for any handler, and an unknown id is skipped. -/
def dispatch (env : Env) (id : UInt8) (l : ServerLocals) : Code ServerLocals :=
  if id = 0x00 ∧ l.fucked = false then login env
  else do
    match (handlers env).lookup id with
    | some handler => handler
    | none => pure ()
    pure l

end Server

/-- One round of the loop. A client that has gone ends the program. -/
def tunnelServer (env : Env) (l : ServerLocals) : Code ServerLocals := do
  let r ← recvW 1
  if r.1 < 1 then Prog.exit
  else Server.dispatch env (byte (env.fill 1 r.2)) l

end LavaTunnel
