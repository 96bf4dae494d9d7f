import LavaTunnel.Relay

/-!
# `LavaTunnel.Client` — `mcConnect` (`client.c`)

The thread that is a client of the server: it logs in, and then each round of its loop receives the id of a
packet and the payload, and sends the packet to the client behind the tunnel. `mcConnect` is one round.
The handlers that only pass a packet on are `Relay`s under the names the source's comments give them; the
others have a definition each.

The buffers are as wide as what is received into them, and the map is flat memory: a block outside the level
is stored where its offset points.
-/

namespace LavaTunnel

open Wire Wire.Prog

/-- A variable of one byte. -/
def byte (v : Bytes) : UInt8 := v.headD 0

/-- A received 16-bit variable in host order. -/
def host (v : Bytes) : UInt16 := ntohs (ofBytes v)

/-- A received 16-bit variable that is turned to host order and back. -/
theorem bytesOf_htons_host {v : Bytes} (h : v.length = 2) : bytesOf (htons (host v)) = v := by
  obtain ⟨a, b, rfl⟩ := List.length_eq_two.mp h
  unfold host
  rw [bytesOf_htons, ntohs, bytesOf_ofBytes]
  show (bytesOf (ofBytes [b, a])).reverse = [a, b]
  rw [bytesOf_ofBytes]
  rfl

/-- `strncpy(_, source, 64)`: the string, and NULs up to the end. -/
def strncpy64 (source : Bytes) : Bytes :=
  let s := (cstr source).take 64
  s ++ List.replicate (64 - s.length) 0

/-- The locals of `mcConnect` that outlive a round. -/
structure McLocals where
  joined : Bool := false
  fucker : UInt8 := 0

namespace Client

/-! ## The packets that are passed on -/

def ping : Relay := ⟨0x01, true, []⟩

def levelInit : Relay := ⟨0x02, true, []⟩

/-- With `FastMap` the size follows. -/
def levelInitFast : Relay := ⟨0x02, true, [wrapped 4]⟩

def chatMessage : Relay := ⟨0x0d, true, [wrapped 1, wrapped 64]⟩

def usertype : Relay := ⟨0x0f, true, [wrapped 1]⟩

def clickDistance : Relay := ⟨0x12, true, [wrapped 2]⟩

def customBlocks : Relay := ⟨0x13, false, [plain 1]⟩

def textHotKey : Relay := ⟨0x15, false, [wrapped 64, wrapped 64, plain 4, plain 1]⟩

def extAddPlayerName : Relay := ⟨0x16, true, [wrapped 2, wrapped 64, wrapped 64, wrapped 64, wrapped 1]⟩

def envSetColor : Relay := ⟨0x19, false, [plain 1, plain 2, plain 2, plain 2]⟩

def makeSelection : Relay :=
  ⟨0x1A, false, [plain 1, plain 64, plain 2, plain 2, plain 2, plain 2, plain 2, plain 2, plain 2, plain 2,
    plain 2, plain 2]⟩

def removeSelection : Relay := ⟨0x1B, false, [plain 1]⟩

def changeModel : Relay := ⟨0x1D, false, [plain 1, wrapped 64]⟩

def envMapAppearence : Relay :=
  ⟨30, true, [wrapped 64, wrapped 1, wrapped 1, wrapped 2, wrapped 2, wrapped 2]⟩

def envSetWeatherType : Relay := ⟨0x1F, true, [wrapped 1]⟩

def playerClicked : Relay :=
  ⟨34, false, [plain 1, plain 1, plain 2, plain 2, plain 1, plain 2, plain 2, plain 2, plain 1]⟩

/-- `sidetexture` goes out by `send`. -/
def defineBlock : Relay :=
  ⟨35, true, [wrapped 1, wrapped 64, wrapped 1, wrapped 1, wrapped 1, halfPlain 1, wrapped 1, wrapped 1,
    wrapped 1, wrapped 1, wrapped 1, wrapped 1, wrapped 1, wrapped 1, wrapped 1, wrapped 1]⟩

def removeDefineBlock : Relay := ⟨36, true, [wrapped 1]⟩

def neoDefineBlock : Relay :=
  ⟨37, true, [wrapped 1, wrapped 64, wrapped 1, wrapped 1, wrapped 1, wrapped 1, wrapped 1, wrapped 1,
    wrapped 1, wrapped 1, wrapped 1, wrapped 1, wrapped 1, wrapped 1, wrapped 1, wrapped 1, wrapped 1,
    wrapped 1, wrapped 1, wrapped 1, wrapped 1, wrapped 1, wrapped 1, wrapped 1]⟩

/-- Count, indices and blocks of a bulk update. The map is not touched. -/
def bulkUpdate : Relay := ⟨38, true, [wrapped 1, wrapped 1024, wrapped 256]⟩

def textColor : Relay := ⟨39, false, [plain 1, plain 1, plain 1, plain 1, plain 1]⟩

def envUrl : Relay := ⟨40, true, [wrapped 64]⟩

def envProperty : Relay := ⟨41, true, [wrapped 1, wrapped 4]⟩

def twoWayPing : Relay := ⟨43, true, [wrapped 1, wrapped 2]⟩

def blockOrder : Relay := ⟨44, true, [wrapped 1, wrapped 1]⟩

/-- The packets that are passed on as they are, in buffers as wide as what is received. -/
def relays : List Relay :=
  [ping, chatMessage, usertype, clickDistance, customBlocks, textHotKey, extAddPlayerName, envSetColor,
    makeSelection, removeSelection, changeModel, envMapAppearence, envSetWeatherType, playerClicked,
    defineBlock, removeDefineBlock, neoDefineBlock, bulkUpdate, textColor, envUrl, envProperty, twoWayPing,
    blockOrder]

/-! ## Login and level -/

/-- MOTD. A `recv` that gets nothing leaves `fucker` as it was. -/
def serverMotd (env : Env) (l : McLocals) : Code McLocals := do
  let _shit ← recvVarW env 1
  let cservername ← recvVarW (env.var 1) 64
  let cmotd ← recvVarW (env.var 2) 64
  let r ← recvCall 1
  let fucker := (r.getD []).headD l.fucker
  let t ← getState
  let haxServername := if t.hax = 1 then toMCString t.haxType else strncpy64 cservername
  let haxMotd := if t.hax = 1 then toMCString t.haxType else strncpy64 cmotd
  packet serverSock [.sendW [0x00], .sendW [0x07], .sendW haxServername, .sendW haxMotd, .send [fucker]]
  update (fun t => { t with motd := strncpy64 cmotd, servername := strncpy64 cservername })
  pure { l with fucker := fucker }

/-- Level int. -/
def levelInt (env : Env) : Code Unit := do
  let t ← getState
  if t.negotiated CPE.fastMap then relay env serverSock levelInitFast else relay env serverSock levelInit

/-- Level data. A negative length asks for more memory than there is. `mapSize` is an `int`; `mapC` is the data
    also where it no longer counts it, and where `realloc` is asked for more than an `int` counts. -/
def levelData (env : Env) : Code Unit := do
  let chunkLen ← recvVarW env 2
  let chunkLenhost := (host chunkLen).toInt16.toInt
  update (fun t => { t with mapSize := int32 (t.mapSize + chunkLenhost) })
  if chunkLenhost < 0 then Prog.exit
  else do
    let r ← recvW chunkLenhost.toNat
    let pass := (env.var 1).fill chunkLenhost.toNat r.2
    let g ← recvW (1024 - chunkLenhost).toNat
    let percent2 ← recvVarW (env.var 3) 1
    update (fun t => { t with mapC := t.mapC ++ pass })
    packet serverSock ([.sendW [0x03], .sendW chunkLen, .sendW (pass.take r.1.toNat)] ++
      (if chunkLenhost < 1024 then [.sendW ((env.var 2).fill (1024 - r.1).toNat g.2)] else []) ++
      [.sendW percent2])

/-- The size of the level in blocks, in the 32 bits of a `uLong`. -/
def uncompressedsize (t : Tunnel) : Nat :=
  (t.lvlx.toNat * t.lvly.toNat * t.lvlz.toNat) % 2 ^ 32

/-- The level as `inflate` gave it: four bytes of size, and the blocks. -/
def inflated (env : Env) (t : Tunnel) : Tunnel :=
  let size := uncompressedsize t
  let outputbuf := env.fill (size + 4) (env.zlib.inflate 31 t.mapC ((size + 4) % 2 ^ 32)).2
  { t with
    map := fun i => if 0 ≤ i ∧ i < size then outputbuf.getD (i.toNat + 4) 0 else t.map i
    mapAlloc := size
    mapC := []
    mapSize := 0 }

/-- The status the code looks at: the one of `inflateEnd`, which has replaced the one of `inflate`. -/
def return1 (env : Env) (t : Tunnel) : Int :=
  env.zlib.inflateEnd 31 t.mapC ((uncompressedsize t + 4) % 2 ^ 32)

/-- Level finalize. The errors of zlib end the program. -/
def levelFinalize (env : Env) : Code Unit := do
  let x ← recvVarW env 2
  let y ← recvVarW (env.var 1) 2
  let z ← recvVarW (env.var 2) 2
  update (fun t => { t with lvlx := host x, lvly := host y, lvlz := host z })
  packet serverSock [.sendW [0x04], .sendW x, .sendW y, .sendW z]
  let t ← getState
  if return1 env t = -5 ∨ return1 env t = -4 ∨ return1 env t = -3 then Prog.exit
  else update (inflated env)

/-- The greeting that follows the first level. -/
def greeting : Bytes := ascii "&0[&4LavaTunnel&0] &fType 'help for commands."

def levelFinal (env : Env) (l : McLocals) : Code McLocals := do
  levelFinalize env
  onlyIf (l.joined = false) (tunnelMsg greeting)
  pure { l with joined := true }

/-- Set block. -/
def setBlockPacket (env : Env) : Code Unit := do
  let x ← recvVarW env 2
  let y ← recvVarW (env.var 1) 2
  let z ← recvVarW (env.var 2) 2
  let block ← recvVarW (env.var 3) 1
  packet serverSock [.sendW [0x06], .sendW x, .sendW y, .sendW z, .sendW block]
  update (fun t => { t with
    map := Function.update t.map
      (calculateOffset t (host x).toInt16 (host y).toInt16 (host z).toInt16) (byte block) })

/-! ## Players -/

/-- Whether the ignore list names a player. -/
def ignored (env : Env) (t : Tunnel) (username : Bytes) : Bool :=
  (List.range (t.ignoreN + 1).toNat).any (fun i => strEqual env username (t.ignores i) true)

/-- A player that has entered under a name. -/
def entered (env : Env) (t : Tunnel) (p : Player) : Player :=
  { p with ignore := if ignored env t p.username then true else p.ignore, valid := true }

/-- Spawn player. -/
def spawnPlayer (env : Env) : Code Unit := do
  let pid ← recvVarW env 1
  let username ← recvVarW (env.var 1) 64
  let x ← recvVarW (env.var 2) 2
  let y ← recvVarW (env.var 3) 2
  let z ← recvVarW (env.var 4) 2
  let yaw ← recvVarW (env.var 5) 1
  let pitch ← recvVarW (env.var 6) 1
  update (fun t => t.setPlayer (byte pid).toNat (fun p => entered env t { p with
    pid := byte pid, username := cleanString env p.username username
    x := host x, y := host y, z := host z, yaw := byte yaw, pitch := byte pitch }))
  packet serverSock [.sendW [0x07], .sendW pid, .sendW username, .sendW x, .sendW y, .sendW z, .sendW yaw,
    .sendW pitch]

/-- What the position updates do for a player that is followed (1) or plotmotioned (2). -/
def follow (i : Int) : Code Unit := do
  let t ← getState
  let p := t.player i
  onlyIf (p.mode = 1) (tunnelTeleport p.x.toInt16 p.y.toInt16 p.z.toInt16 p.yaw p.pitch)
  onlyIf (p.mode = 2) (do
    tunnelTeleport p.x.toInt16 p.y.toInt16 p.z.toInt16 p.yaw p.pitch
    setBlock (p.x / 32).toInt16 (p.y / 32).toInt16 (p.z / 32).toInt16 t.plotBlock true)

/-- Pos and orientation, in coordinates of `width` bytes. Of the wide ones nothing is kept. -/
def position (env : Env) (width : Nat) (coord : Bytes → UInt16) : Code Unit := do
  let pid ← recvVarW env 1
  let x ← recvVarW (env.var 1) width
  let y ← recvVarW (env.var 2) width
  let z ← recvVarW (env.var 3) width
  let yaw ← recvVarW (env.var 4) 1
  let pitch ← recvVarW (env.var 5) 1
  update (fun t => t.setPlayer (byte pid).toNat (fun p => { p with
    x := coord x, y := coord y, z := coord z, yaw := byte yaw, pitch := byte pitch }))
  packet serverSock [.sendW [0x08], .sendW pid, .sendW x, .sendW y, .sendW z, .sendW yaw, .sendW pitch]
  follow (byte pid).toNat

def posAndOrientation (env : Env) : Code Unit := do
  let t ← getState
  if t.negotiated CPE.extEntityPos then position env 4 (fun _ => ntohs 69) else position env 2 host

/-- A coordinate moved by a signed byte. -/
def moved (x : UInt16) (d : Bytes) : UInt16 := toUShort (x.toNat + (byte d).toInt8.toInt)

/-- Pos offset update. -/
def posOffsetUpdate (env : Env) : Code Unit := do
  let pid ← recvVarW env 1
  let x ← recvVarW (env.var 1) 1
  let y ← recvVarW (env.var 2) 1
  let z ← recvVarW (env.var 3) 1
  let yaw ← recvVarW (env.var 4) 1
  let pitch ← recvVarW (env.var 5) 1
  update (fun t => t.setPlayer (byte pid).toNat (fun p => { p with
    x := moved p.x x, y := moved p.y y, z := moved p.z z, yaw := byte yaw, pitch := byte pitch }))
  packet serverSock [.sendW [0x09], .sendW pid, .sendW x, .sendW y, .sendW z, .sendW yaw, .sendW pitch]
  follow (byte pid).toNat

/-- Pos update. -/
def posUpdate (env : Env) : Code Unit := do
  let pid ← recvVarW env 1
  let x ← recvVarW (env.var 1) 1
  let y ← recvVarW (env.var 2) 1
  let z ← recvVarW (env.var 3) 1
  update (fun t => t.setPlayer (byte pid).toNat (fun p => { p with
    x := moved p.x x, y := moved p.y y, z := moved p.z z }))
  packet serverSock [.sendW [0x0a], .sendW pid, .sendW x, .sendW y, .sendW z]
  follow (byte pid).toNat

/-- Orientation update. -/
def orientationUpdate (env : Env) : Code Unit := do
  let pid ← recvVarW env 1
  let yaw ← recvVarW (env.var 1) 1
  let pitch ← recvVarW (env.var 2) 1
  update (fun t => t.setPlayer (byte pid).toNat (fun p => { p with yaw := byte yaw, pitch := byte pitch }))
  packet serverSock [.sendW [0x0b], .sendW pid, .sendW yaw, .sendW pitch]

/-- Player disconnect. -/
def playerDisconnect (env : Env) : Code Unit := do
  let pid ← recvVarW env 1
  packet serverSock [.sendW [0x0c], .sendW pid]
  update (fun t => t.setPlayer (byte pid).toNat (fun p => { p with valid := false, mode := 0 }))

/-- Kick: the program ends. -/
def kick (env : Env) : Code McLocals := do
  let msg ← recvVarW env 64
  update (fun t => { t with cuboid := { t.cuboid with halt := true } })
  packet serverSock [.sendW [0x0e], .sendW msg]
  Prog.exit

/-! ## CPE -/

/-- ExtInfo. The count is turned to host order and back. -/
def extInfo (env : Env) : Code Unit := do
  let app ← recvVarW env 64
  let count ← recvVarW (env.var 1) 2
  packet serverSock [.sendW [0x10], .sendW app, .sendW (bytesOf (htons (host count)))]

/-- The extensions an entry can announce. -/
def announce (env : Env) (extname : Bytes) (cpe : CPE) : CPE :=
  let nextname := cstr (nullTerm env (strncpy64 extname))
  { blockDefs := cpe.blockDefs || nextname == ascii "BlockDefinitions"
    blockDefsExt := cpe.blockDefsExt || nextname == ascii "BlockDefinitionsExt"
    extEntityPos := cpe.extEntityPos || nextname == ascii "ExtEntityPositions"
    fastMap := cpe.fastMap || nextname == ascii "FastMap"
    extText := cpe.extText || nextname == ascii "ExtendedTextures"
    extBlocks := cpe.extBlocks || nextname == ascii "ExtendedBlocks" }

/-- ExtEntry. -/
def extEntry (env : Env) : Code Unit := do
  let extname ← recvVarW env 64
  let version ← recvVarW (env.var 1) 4
  update (fun t => { t with cpeClient := announce env extname t.cpeClient })
  packet serverSock [.sendW [0x11], .sendW extname, .sendW version]

/-- Hold this: ignored. -/
def holdThis (env : Env) : Code Unit := do
  let _block ← recvVar env 1
  let _prevent ← recvVar (env.var 1) 1
  pure ()

/-- The record of an entity: `char pid` is signed, so an id from 128 on lies below the table. -/
def addEntity (env : Env) (entityid skinname yaw pitch : Bytes) (t : Tunnel) : Tunnel :=
  let mrclean := cleanString env (env.undef 64) skinname
  t.setPlayer (byte entityid).toInt8.toInt (fun p => entered env t { p with
    pid := byte entityid, x := ntohs 20, y := ntohs 20, z := ntohs 20
    yaw := byte yaw, pitch := byte pitch, username := strcpy p.username mrclean })

/-- ExtAddEntity2. With `ExtEntityPositions` it is received but not sent. -/
def extAddEntity2 (env : Env) : Code Unit := do
  let t ← getState
  if t.negotiated CPE.extEntityPos then do
    let entityid ← recvVarW (env.var 1) 1
    let _ingame ← recvVarW (env.var 2) 64
    let skinname ← recvVarW (env.var 3) 64
    let _x ← recvVarW (env.var 4) 4
    let _y ← recvVarW (env.var 5) 4
    let _z ← recvVarW (env.var 6) 4
    let yaw ← recvVarW (env.var 7) 1
    let pitch ← recvVarW (env.var 8) 1
    update (addEntity env entityid skinname yaw pitch)
  else do
    let entityid ← recvVarW (env.var 1) 1
    let ingame ← recvVarW (env.var 2) 64
    let skinname ← recvVarW (env.var 3) 64
    let x ← recvVarW (env.var 4) 2
    let y ← recvVarW (env.var 5) 2
    let z ← recvVarW (env.var 6) 2
    let yaw ← recvVarW (env.var 7) 1
    let pitch ← recvVarW (env.var 8) 1
    packet serverSock [.sendW [0x21], .sendW entityid, .sendW ingame, .sendW skinname, .sendW x, .sendW y,
      .sendW z, .sendW yaw, .sendW pitch]
    update (addEntity env entityid skinname yaw pitch)

/-- ExtRemovePlayerName: `char pid` is the first of the two bytes. -/
def extRemovePlayerName (env : Env) : Code Unit := do
  let nameid ← recvVarW env 2
  packet serverSock [.send [0x18], .send nameid]
  update (fun t => t.setPlayer (byte nameid).toInt8.toInt (fun p => { p with valid := false }))

/-- SetBlockPermission. The branch for `ExtendedBlocks` does the same. -/
def setBlockPermission (env : Env) : Code Unit := do
  let block ← recvVarW env 1
  let allowplace ← recvVarW (env.var 1) 1
  let allowdelete ← recvVarW (env.var 2) 1
  let t ← getState
  if t.hax = 1 then packet serverSock [.sendW [0x1C], .sendW block, .sendW [1], .sendW [1]]
  else packet serverSock [.sendW [0x1C], .sendW block, .sendW allowplace, .sendW allowdelete]

/-- Hackcontrol. `jumpheight` is a `char`, and the byte behind it is `respawn`: with hax both bytes that go out for it
    have been overwritten. Without hax it is as wide as what is received into it. -/
def hackcontrol (env : Env) : Code Unit := do
  let flying ← recvVarW env 1
  let noclip ← recvVarW (env.var 1) 1
  let walkspeed ← recvVarW (env.var 2) 1
  let runspeed ← recvVarW (env.var 3) 1
  let respawn ← recvVarW (env.var 4) 1
  let jumpheight ← recvVarW (env.var 5) 2
  let t ← getState
  if t.hax = 1 then
    packet serverSock [.sendW [0x20], .sendW [255], .sendW [1], .sendW [255], .sendW [255], .sendW [1],
      .sendW [255, 1]]
  else
    packet serverSock [.sendW [0x20], .sendW flying, .sendW noclip, .sendW walkspeed, .sendW runspeed,
      .sendW respawn, .sendW jumpheight]

/-- Entity property: received but not sent. -/
def entityProperty (env : Env) : Code Unit := do
  let _f ← recvVarW env 1
  let _u2 ← recvVarW (env.var 1) 2
  let _value ← recvVarW (env.var 2) 4
  pure ()

/-! ## The loop -/

/-- The handlers that leave the locals alone, each under its id. -/
def handlers (env : Env) : List (UInt8 × Code Unit) :=
  relays.map (fun r => (r.id, relay env serverSock r)) ++
    [(0x02, levelInt env), (0x03, levelData env), (0x06, setBlockPacket env), (0x07, spawnPlayer env),
      (0x08, posAndOrientation env), (0x09, posOffsetUpdate env), (0x0a, posUpdate env),
      (0x0b, orientationUpdate env), (0x0c, playerDisconnect env), (0x10, extInfo env),
      (0x11, extEntry env), (0x14, holdThis env), (0x21, extAddEntity2 env),
      (0x18, extRemovePlayerName env), (0x1C, setBlockPermission env), (0x20, hackcontrol env),
      (42, entityProperty env)]

/-- What follows the id of a packet. The tests of the source are one after the other, but no two are for
    the same id. An unknown id is skipped. -/
def dispatch (env : Env) (id : UInt8) (l : McLocals) : Code McLocals :=
  if id = 0x00 then serverMotd env l
  else if id = 0x04 then levelFinal env l
  else if id = 0x0e then kick env
  else do
    match (handlers env).lookup id with
    | some handler => handler
    | none => pure ()
    pure l

/-- The server has gone: the client is kicked and the program ends. The text is lost, because
    `toMCString(msg, msg)` blanks its own source. -/
def disconnected : Code McLocals := do
  packet serverSock [.send [0x0e], .sendW (List.replicate 64 32)]
  Prog.exit

end Client

/-- The login packet `mcConnect` starts with. -/
def mcLogin : Code Unit := do
  let t ← getState
  let unused := if t.useCPE = 0 then 0 else t.unused
  update (fun t => { t with unused := if t.useCPE = 0 then 0 else t.unused })
  packet tunnelSock [.sendW [0x00], .sendW [7], .sendW (toMCString t.username),
    .sendW (toMCString t.mppass), .sendW [unused]]

/-- One round of the loop. -/
def mcConnect (env : Env) (l : McLocals) : Code McLocals := do
  let r ← recvW 1
  if r.1 < 1 then Client.disconnected
  else Client.dispatch env (byte (env.fill 1 r.2)) l

end LavaTunnel
