import LavaTunnel.Helper
import LavaTunnel.Blocks

/-!
# `LavaTunnel.Command` — `commandFunc` (`command.c`)

One definition a command, and `commandFunc`, which tells them apart. A command is a C string; `strtok`
splits it at spaces. The bounds of the message and file name buffers are not modelled: a message is what the
format says, and `toMCString` cuts it when it is sent; and the names of chunks are taken to fit (`NameFits`).
-/

namespace LavaTunnel

open Wire Wire.Prog

/-- `strtok(_, " ")`: the next token, if there is one, and where the search goes on. -/
def strtok (s : Bytes) : Option Bytes × Bytes :=
  let s := s.dropWhile (· = 32)
  if s = [] then (none, [])
  else (some (s.takeWhile (· ≠ 32)), (s.dropWhile (· ≠ 32)).drop 1)

/-- `arg[0]`. -/
def arg0 (command : Bytes) : Option Bytes := (strtok command).1

/-- `arg[1]`. -/
def arg1 (command : Bytes) : Option Bytes := (strtok (strtok command).2).1

/-- `arg[2]`. -/
def arg2 (command : Bytes) : Option Bytes := (strtok (strtok (strtok command).2).2).1

/-- What the tunnel puts before its messages. -/
def lava (s : String) : Bytes := ascii "&0[&4LavaTunnel&0] &f" ++ ascii s

/-- The digits at the start of a text, as a number. -/
def digits (acc : Nat) : Bytes → Nat
  | [] => acc
  | c :: rest => if 48 ≤ c ∧ c ≤ 57 then digits (10 * acc + (c.toNat - 48)) rest else acc

/-- `isspace` of the C locale. -/
def isspace (c : UInt8) : Bool := c == 32 || (decide (9 ≤ c) && decide (c ≤ 13))

/-- `atoi`. -/
def atoi (s : Bytes) : Int :=
  match s.dropWhile isspace with
  | 45 :: rest => int32 (-(digits 0 rest : Int))
  | 43 :: rest => int32 (digits 0 rest)
  | rest => int32 (digits 0 rest)

/-- `rand()`. -/
def rand (env : Env) : Code Nat := do
  let t ← getState
  update (fun t => { t with rands := t.rands + 1 })
  pure (env.rand t.rands)

/-- The ids 0 to 255. -/
def ids : List Int := (List.range 256).map Int.ofNat

/-- The first player in `is` whose name `hit` accepts. -/
def findPlayer (t : Tunnel) (is : List Int) (hit : Int → Bytes → Bool) : Option Int :=
  is.find? (fun i => hit i (cstr (t.player i).username))

/-- Whether `strEqual` accepts the name of entry `i`. -/
def sameName (env : Env) (name : Bytes) (i : Int) (u : Bytes) : Bool := strEqual (env.call i) name u false

/-- Teleport the client to where `player[i]` is. -/
def teleportTo (i : Int) : Code Unit := do
  let t ← getState
  let p := t.player i
  tunnelTeleport (toShort p.x.toNat) (toShort p.y.toNat) (toShort p.z.toNat) p.yaw p.pitch

/-- Set `player[i].mode`. -/
def setMode (i : Int) (mode : Int) : Code Unit :=
  update (fun t => t.setPlayer i (fun p => { p with mode := mode }))

/-! ## Commands that take no args -/

def cmdHide : Code Unit := do
  let t ← getState
  if t.hide = false then
    tunnelMsg (lava "Stopped sending position to server.")
    update (fun t => { t with hide := true })
  else
    tunnelMsg (lava "Now sending position to server.")
    update (fun t => { t with hide := false })

def cmdBack : Code Unit := do
  let t ← getState
  tunnelTeleport t.user.x t.user.y t.user.z t.user.yaw t.user.pitch

/-- `pitch` is the user's, with the sign reversed; the row of ten blocks climbs by it. -/
def cmdPtp : Code Unit := do
  let t ← getState
  let pitch : Int := -t.user.pitch.toInt8.toInt
  let y2 := toShort (t.user.y.toInt + pitch)
  let x2 := t.user.x
  let z2 := t.user.z
  forEach (fun (k : Nat) => do
      let t' ← getState
      setBlock (toShort (x2.toInt.tdiv 32 + k)) (toShort (t.user.y.toInt.tdiv 32 + (k + 1) * pitch))
        (toShort (t'.user.z.toInt.tdiv 32)) 2 true)
    (List.range 10)
  let t' ← getState
  tunnelTeleport x2 y2 z2 t'.user.yaw t'.user.pitch

def cmdRoll (env : Env) : Code Unit := do
  let r ← rand env
  sendMessage 0 (ascii "I rolled a " ++ decimal ((r % (99999 - 10000) : Nat) + 1) ++ ascii ".")

def cmdGimp : Code Unit := do
  let t ← getState
  if t.gimpN < 1 then
    tunnelMsg (lava "Gimp file is empty or doesnt exist.")
  else if t.gimped = false then
    tunnelMsg (lava "You are now gimped.")
    update (fun t => { t with gimped := true })
  else
    tunnelMsg (lava "Ungimped.")
    update (fun t => { t with gimped := false })

/-- What `cancel` resets. The cuboid's `place` is not among it. -/
def cancelled (t : Tunnel) : Tunnel :=
  { t with
    gimped := false
    cuboid := { t.cuboid with halt := true }
    paste := { t.paste with halt := true, place := false }
    paint := false
    zPlace := false
    copy := { t.copy with place := false }
    player := fun i => if 0 ≤ i ∧ i < 256 then { t.player i with mode := 0 } else t.player i }

def cmdCancel : Code Unit := do
  let t ← getState
  onlyIf (t.hide = true) (do
    tunnelTeleport t.user.x t.user.y t.user.z t.user.yaw t.user.pitch
    update (fun t => { t with hide := false }))
  update cancelled
  tunnelMsg (lava "Cancled all toggles/actions.")

/-! ## Commands with args -/

def cmdTp (arg1 : Option Bytes) : Code Unit := do
  match arg1 with
  | none => tunnelMsg (lava "tp: missing argument.")
  | some name =>
      let t ← getState
      match findPlayer t ids (fun _ u => strstr u name) with
      | some i => teleportTo i
      | none => tunnelMsg (lava "Can't find player.")

def helpUsage : List Bytes :=
  [lava "Usage: help <option>", lava "'help player - player related cmds like 'tp",
    lava "'help build - building cmds like 'z"]

def helpPlayer : List Bytes :=
  [ascii "&0================", ascii "&4Player related commands:",
    ascii "'help <player,build,packets> - prints help for x cmds.",
    ascii "'hide - stop sending your position to the server",
    ascii "'tp <player> - teleports you to <player>",
    ascii "'follow <player> - follow <player>",
    ascii "'specate <player> - follow <player> while invisible",
    ascii "'cancel - cancel all toggles and actions e.g. follow",
    ascii "'ignore <player> - ignore all chat from <player> (see ignore.txt)",
    ascii "'gimp - gimp/joker yourself",
    ascii "'find <player> - gives the coords of <player>",
    ascii "'back - go back to where the server thinks you are",
    ascii "&0================"]

def helpBuild : List Bytes :=
  [ascii "&0===============", ascii "&4Build related commands:",
    ascii "'zspeed <speed> - time the tunnel will wait between",
    ascii "each block placed in ms, use 'none' for no limit",
    ascii "'z block - place two blocks to define a cuboid",
    ascii "leave <mode> blank for regular cuboid",
    ascii "'paint <block> - same as /paint from MCLawl servers",
    ascii "&0==============="]

def cmdHelp (arg1 : Option Bytes) : Code Unit := do
  match arg1 with
  | none => forEach tunnelMsg helpUsage
  | some topic =>
      onlyIf (topic = ascii "player") (forEach tunnelMsg helpPlayer)
      onlyIf (topic = ascii "build") (forEach tunnelMsg helpBuild)

def cmdPlotmotion (env : Env) (arg1 arg2 : Option Bytes) : Code Unit := do
  match arg1, arg2 with
  | none, _ => tunnelMsg (lava "plotmotion: Missing playername")
  | some _, none => tunnelMsg (lava "plotmotion: Missing block")
  | some name, some block =>
      if getBid block ≠ 255 then
        update (fun t => { t with plotBlock := getBid block })
        let t ← getState
        match findPlayer t ids (sameName env name) with
        | some i =>
            setMode i 2
            teleportTo i
            tunnelMsg (lava "plotmotion: Plotmotioning '" ++ name ++ ascii "' with '" ++ block ++
              ascii "'")
        | none => pure ()
      else tunnelMsg (lava "plotmotion: unknown block")

def cmdPaint (arg1 : Option Bytes) : Code Unit := do
  match arg1 with
  | none => tunnelMsg (lava "paint: Missing argument.")
  | some block =>
      if getBid block ≠ 255 then
        update (fun t => { t with paintBid := getBid block, paint := true })
        tunnelMsg (lava "Painting with '" ++ block ++ ascii "'.")
      else tunnelMsg (lava "z: Unknown block!")

/-- The file of a chunk. -/
def chunkFile (name : Bytes) : Bytes := ascii "chunks\\" ++ name ++ ascii ".chunk"

/-- The name of the chunk of a `copy` or `paste` fits `chunkName`, which has 64 bytes. What a longer one writes behind
    it, over the flags of the operation first, is not modelled. -/
def NameFits (command : Bytes) : Prop :=
  arg0 command = some (ascii "copy") ∨ arg0 command = some (ascii "paste") →
    ∀ name ∈ arg1 command, (chunkFile name).length < 64

instance (command : Bytes) : Decidable (NameFits command) := inferInstanceAs (Decidable (_ → _))

/-- With a name that fits. -/
def cmdPaste (arg1 : Option Bytes) : Code Unit := do
  match arg1 with
  | none => tunnelMsg (lava "paste: missing chunkname")
  | some name =>
      update (fun t => { t with
        paste := { t.paste with chunkName := chunkFile name, place := true }
        zPlace := true })

/-- With a name that fits. -/
def cmdCopy (arg1 : Option Bytes) : Code Unit := do
  match arg1 with
  | none => tunnelMsg (lava "copy: missing chunkname")
  | some name =>
      update (fun t => { t with
        copy := { t.copy with chunkName := chunkFile name, halt := false, place := true }
        points := 0
        zPlace := true })

/-- The block of a `z` command: from the points if there is no argument. -/
def cmdZBlock (arg1 : Option Bytes) : Code Unit := do
  match arg1 with
  | none =>
      tunnelMsg (lava "z: Place two points.")
      update (fun t => { t with cuboid := { t.cuboid with getBlock := true } })
  | some block =>
      if getBid block ≠ 255 then
        update (fun t => { t with
          cuboid := { t.cuboid with block := getBid block, getBlock := false } })
        tunnelMsg (lava "z: Place two points.")
      else tunnelMsg (lava "z: Unknown block!")

/-- The state a `z` command leaves once its block is settled. -/
def zPending (t : Tunnel) : Tunnel :=
  { t with
    points := 0
    cuboid := { t.cuboid with halt := false, place := true, type := 0 }
    zPlace := true }

def cmdZ (arg1 : Option Bytes) : Code Unit := do
  cmdZBlock arg1
  update zPending

/-- Turn the delay of the cuboid on or off. -/
def setZspeed (speed : Bytes) : Code Unit := do
  if speed = ascii "none" then
    update (fun t => { t with cuboid := { t.cuboid with zlimit := false } })
    tunnelMsg (lava "zspeed: no build speed delay huge cuboids may lag")
  else
    update (fun t => { t with cuboid := { t.cuboid with zspeed := atoi speed, zlimit := true } })

def cmdZspeed (arg1 : Option Bytes) : Code Unit := do
  match arg1 with
  | none => tunnelMsg (lava "zspeed: missing argument.")
  | some speed =>
      setZspeed speed
      let t ← getState
      tunnelMsg (lava "zspeed: speed set to " ++ decimal t.cuboid.zspeed ++ ascii "ms.")

/-- The search starts at -1, where the user's own record lies. -/
def cmdFind (env : Env) (arg1 : Option Bytes) : Code Unit := do
  match arg1 with
  | none => tunnelMsg (lava "find: missing argument.")
  | some name =>
      let t ← getState
      match findPlayer t (-1 :: ids) (sameName env name) with
      | some i =>
          let p := t.player i
          tunnelMsg (lava "" ++ cstr p.username ++ ascii " found at " ++ decimal (p.x.toNat / 32 : Nat) ++
            ascii ", " ++ decimal (p.y.toNat / 32 : Nat) ++ ascii ", " ++ decimal (p.z.toNat / 32 : Nat) ++
            ascii " (" ++ decimal p.yaw.toNat ++ ascii ", " ++ decimal p.pitch.toNat ++ ascii ")")
      | none => tunnelMsg (lava "Can't find player.")

def cmdIgnore (env : Env) (arg1 : Option Bytes) : Code Unit := do
  match arg1 with
  | none => tunnelMsg (lava "ignore: missing argument.")
  | some name =>
      let t ← getState
      match findPlayer t ids (sameName env name) with
      | some i =>
          let p := t.player i
          if p.ignore then
            tunnelMsg (lava "Stopped ignoring " ++ cstr p.username ++ ascii ".")
            update (fun t => t.setPlayer i (fun p => { p with ignore := false }))
          else
            tunnelMsg (lava "Ignoring " ++ cstr p.username ++ ascii ".")
            update (fun t => t.setPlayer i (fun p => { p with ignore := true }))
      | none => tunnelMsg (lava "Can't find player.")

/-- Every player whose name contains the argument is followed. `found` starts out uninitialised. -/
def cmdFollow (env : Env) (arg1 : Option Bytes) : Code Unit := do
  match arg1 with
  | none => tunnelMsg (lava "follow: missing argument.")
  | some name =>
      let t ← getState
      forEach (fun i => do
          let t ← getState
          onlyIf (strstr (cstr (t.player i).username) name = true) (do
            setMode i 1
            teleportTo i))
        ids
      onlyIf (env.junk 3 0 = 0 ∧ findPlayer t ids (fun _ u => strstr u name) = none)
        (tunnelMsg (lava "follow: couldn't find player."))

def cmdSpectate (env : Env) (arg1 : Option Bytes) : Code Unit := do
  match arg1 with
  | none => tunnelMsg (lava "spectate: missing argument.")
  | some name =>
      let t ← getState
      match findPlayer t ids (sameName env name) with
      | some i =>
          setMode i 1
          update (fun t => { t with hide := true })
          teleportTo i
      | none => pure ()

/-! ## The dispatch -/

/-- Returns false if command is unknown else returns true. `dump` only prints, and then counts as
    unknown. -/
def commandFunc (env : Env) (command : Bytes) : Code Bool :=
  let known (c : Code Unit) : Code Bool := do
    c
    pure true
  if command = ascii "hide" then known cmdHide
  else if command = ascii "back" then known cmdBack
  else if command = ascii "ptp" then known cmdPtp
  else if command = ascii "roll" then known (cmdRoll env)
  else if command = ascii "gimp" then known cmdGimp
  else if command = ascii "cancel" then known cmdCancel
  else if arg0 command = some (ascii "tp") then known (cmdTp (arg1 command))
  else if arg0 command = some (ascii "help") then known (cmdHelp (arg1 command))
  else if arg0 command = some (ascii "plotmotion") then
    known (cmdPlotmotion env (arg1 command) (arg2 command))
  else if arg0 command = some (ascii "paint") then known (cmdPaint (arg1 command))
  else if arg0 command = some (ascii "paste") then known (cmdPaste (arg1 command))
  else if arg0 command = some (ascii "copy") then known (cmdCopy (arg1 command))
  else if arg0 command = some (ascii "z") then known (cmdZ (arg1 command))
  else if arg0 command = some (ascii "zspeed") then known (cmdZspeed (arg1 command))
  else if arg0 command = some (ascii "find") then known (cmdFind env (arg1 command))
  else if arg0 command = some (ascii "ignore") then known (cmdIgnore env (arg1 command))
  else if arg0 command = some (ascii "follow") then known (cmdFollow env (arg1 command))
  else if arg0 command = some (ascii "spectate") then known (cmdSpectate env (arg1 command))
  else pure false

end LavaTunnel
