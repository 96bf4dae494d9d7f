import LavaTunnel.Helper
import LavaTunnel.Scan.Box

/-!
# `LavaTunnel.Build` — the builder thread (`build.c`)

The thread tests `paste.start`, `copy.start` and `cuboid.start` in turn, and each operation is a nest of
three counting loops. `Pc` is where the thread stands, with the local variables that are live there, and
`builderIteration` is what it does up to the next loop condition: where it goes, how it changes the shared
state, and which functions it calls. The loops read the corners anew in every condition.

The three nests are copies of each other. `Loops` is what they share; they differ in the bounds, in the
body of the innermost loop and in where they look at `halt`: the cuboid does in all three loops, the paste
in the innermost one, the copy nowhere. A `break` out of a loop goes on as if its condition had failed.
-/

namespace LavaTunnel

open Wire Wire.Prog Scan

/-- A call the builder makes. -/
inductive BuilderCall where
  | setBlock (x y z : Int16) (bid : UInt8) (sendpos : Bool)
  | tunnelMsg (msg : Bytes)
deriving DecidableEq

/-! ## The loop nest -/

/-- The counters of a nest, and the loop whose condition is next. -/
structure Loops where
  level : Level
  vx : Int16
  vy : Int16
  vz : Int16

/-- The bounds of a nest: where the two inner loops start, and where each loop ends. -/
structure Bounds where
  x1 : Int16
  z1 : Int16
  x2 : Int
  y2 : Int
  z2 : Int

/-- The condition that is next. -/
def Loops.inside (b : Bounds) (l : Loops) : Bool :=
  match l.level with
  | .y => l.vy.toInt ≤ b.y2
  | .x => l.vx.toInt ≤ b.x2
  | .z => l.vz.toInt ≤ b.z2

/-- Where the nest goes when the condition holds; the innermost body has been run. -/
def Loops.enter (b : Bounds) (l : Loops) : Loops :=
  match l.level with
  | .y => { l with level := .x, vx := b.x1 }
  | .x => { l with level := .z, vz := b.z1 }
  | .z => { l with vz := l.vz + 1 }

/-- Where the nest goes when the condition fails, `none` behind the outermost loop. -/
def Loops.leave (l : Loops) : Option Loops :=
  match l.level with
  | .y => none
  | .x => some { l with level := .y, vy := l.vy + 1 }
  | .z => some { l with level := .x, vx := l.vx + 1 }

/-! ## Where the thread stands -/

/-- The locals of a paste: the chunk, the place in it, and the far corner. -/
structure Pasting where
  pastebuf : Bytes
  bufLoop : Nat
  px : Int16
  py : Int16
  pz : Int16
  hidden : Bool

/-- Where the builder stands. -/
inductive Pc where
  | paste
  | pasteLoop (p : Pasting) (l : Loops)
  | copy
  | copyLoop (copyBuf : Bytes) (l : Loops)
  | copyWrite (copyBuf : Bytes)
  | cuboid
  | cuboidLoop (hidden : Bool) (l : Loops)
  | crashed

/-- What the builder does up to the next loop condition. -/
structure Iteration where
  next : Pc
  update : Tunnel → Tunnel := id
  calls : List BuilderCall := []

/-- The two corners of an axis, the smaller one first. -/
def ordered (a b : UInt16) : UInt16 × UInt16 := if b < a then (b, a) else (a, b)

/-- The end of an operation: `hide` is taken back unless it had been on before. -/
def unhide (hidden : Bool) (t : Tunnel) : Tunnel := { t with hide := if hidden then t.hide else false }

/-! ## Paste -/

/-- `pastebuf[i]`. The buffer has 9000 bytes, and then comes other memory. -/
def Env.pasteByte (env : Env) (pastebuf : Bytes) (i : Nat) : UInt8 :=
  if i < 9000 then pastebuf.getD i 0 else env.stack (i - 9000)

/-- A `short` at an offset of the chunk. -/
def shortAt (pastebuf : Bytes) (i : Nat) : Int16 := (ofBytes (pastebuf.drop i)).toInt16

/-- The far corner on one axis, put in order with the near one: `paste.x` and `px`. -/
def pasteCorners (near : UInt16) (extent : Int16) : UInt16 × Int16 :=
  let far := toShort (near.toNat + extent.toInt - 1)
  if (near.toNat : Int) > far.toInt then (far.toUInt16, near.toInt16) else (near, far)

/-- Read the chunk and set out from the first point. -/
def pasteStart (env : Env) (t : Tunnel) : Iteration :=
  match t.files (cstr t.paste.chunkName) with
  | none => { next := .crashed }
  | some chunk =>
      let pastebuf := env.fill 9000 (chunk.take 9000)
      let cx := pasteCorners t.paste.x (shortAt pastebuf 0)
      let cy := pasteCorners t.paste.y (shortAt pastebuf 2)
      let cz := pasteCorners t.paste.z (shortAt pastebuf 4)
      { next := .pasteLoop ⟨pastebuf, 6, cx.2, cy.2, cz.2, t.hide⟩
          ⟨.y, cx.1.toInt16, cy.1.toInt16, cz.1.toInt16⟩
        update := fun t => { t with
          hide := true
          paste := { t.paste with x := cx.1, y := cy.1, z := cz.1 } } }

/-- The bounds of the paste: the near corner is read from `paste`, the far one is local. -/
def pasteBounds (t : Tunnel) (p : Pasting) : Bounds :=
  ⟨t.paste.x.toInt16, t.paste.z.toInt16, p.px.toInt, p.py.toInt, p.pz.toInt⟩

def pasteStop (t : Tunnel) : Tunnel := { t with paste := { t.paste with start := false } }

/-- Where the paste goes when a loop is left. -/
def pasteLeave (p : Pasting) (l : Loops) : Iteration :=
  match l.leave with
  | some l' => { next := .pasteLoop p l' }
  | none => { next := .copy, update := fun t => unhide p.hidden (pasteStop t) }

/-- The innermost body. Both branches of the speed limit send the position. -/
def pasteBody (env : Env) (p : Pasting) (l : Loops) : List BuilderCall :=
  let block := env.pasteByte p.pastebuf p.bufLoop
  if block ≠ 0 then [.setBlock l.vx l.vy l.vz block true] else []

def pasteIteration (env : Env) (t : Tunnel) (p : Pasting) (l : Loops) : Iteration :=
  if l.inside (pasteBounds t p) then
    if l.level = .z then
      if t.paste.halt then
        -- only the innermost loop is left: the outer ones run on, and end up here again
        { pasteLeave p l with update := pasteStop }
      else
        { next := .pasteLoop { p with bufLoop := p.bufLoop + 1 } (l.enter (pasteBounds t p))
          calls := pasteBody env p l }
    else { next := .pasteLoop p (l.enter (pasteBounds t p)) }
  else pasteLeave p l

/-! ## Copy -/

/-- The copy with its corners in order. -/
def copySorted (c : Copy) : Copy :=
  { c with
    x1 := (ordered c.x1 c.x2).1, x2 := (ordered c.x1 c.x2).2
    y1 := (ordered c.y1 c.y2).1, y2 := (ordered c.y1 c.y2).2
    z1 := (ordered c.z1 c.z2).1, z2 := (ordered c.z1 c.z2).2 }

/-- What a counting loop from `a` to `b` counts, as a `short`. -/
def extent (a b : UInt16) : Int16 := toShort ((b.toNat : Int) + 1 - a.toNat)

/-- The three extents at the head of a chunk. -/
def copyHeader (c : Copy) : Bytes :=
  bytesOf (extent c.x1 c.x2).toUInt16 ++ bytesOf (extent c.y1 c.y2).toUInt16 ++
    bytesOf (extent c.z1 c.z2).toUInt16

/-- `copy.size`. -/
def copySize (c : Copy) : Int :=
  int32 (int32 (int32 ((extent c.x1 c.x2).toInt * (extent c.y1 c.y2).toInt) *
    (extent c.z1 c.z2).toInt) + 6)

/-- Put the corners in order, announce the size and set out. `malloc` fails on a negative size. -/
def copyStart (t : Tunnel) : Iteration :=
  let c := copySorted t.copy
  let size := copySize c
  { next := if size < 0 then .crashed
      else .copyLoop (copyHeader c) ⟨.y, c.x1.toInt16, c.y1.toInt16, c.z1.toInt16⟩
    update := fun t => { t with copy := { copySorted t.copy with size := size } }
    calls := [
      .tunnelMsg (ascii "&0[&4LavaTunnel&0] &fcopy: size of area: " ++ decimal (size - 6) ++
        ascii " Bytes, " ++ decimal ((size - 6).tdiv 1024) ++ ascii " KB,"),
      .tunnelMsg (decimal ((size.tdiv 1024).tdiv 1024) ++ ascii " MB")] }

def copyBounds (t : Tunnel) : Bounds :=
  ⟨t.copy.x1.toInt16, t.copy.z1.toInt16, t.copy.x2.toNat, t.copy.y2.toNat, t.copy.z2.toNat⟩

def copyIteration (t : Tunnel) (copyBuf : Bytes) (l : Loops) : Iteration :=
  if l.inside (copyBounds t) then
    { next := .copyLoop
        (if l.level = .z then copyBuf ++ [t.map (calculateOffset t l.vx l.vy l.vz)] else copyBuf)
        (l.enter (copyBounds t)) }
  else
    match l.leave with
    | some l' => { next := .copyLoop copyBuf l' }
    | none =>
        { next := .copyWrite copyBuf
          calls := [.tunnelMsg (ascii "&0[&4LavaTunnel&0] &fcopy: writing to file...")] }

/-- Write the chunk: `copy.size` bytes of the buffer. -/
def copyFinish (env : Env) (copyBuf : Bytes) : Iteration :=
  { next := .cuboid
    update := fun t => { t with
      files := Function.update t.files (cstr t.copy.chunkName)
        (some (env.fill t.copy.size.toNat copyBuf))
      copy := { t.copy with size := 0, start := false } }
    calls := [.tunnelMsg (ascii "&0[&4LavaTunnel&0] &fcopy: done!")] }

/-! ## Cuboid -/

/-- The cuboid with its corners in order. -/
def cuboidSorted (c : Cuboid) : Cuboid :=
  { c with
    x1 := (ordered c.x1 c.x2).1, x2 := (ordered c.x1 c.x2).2
    y1 := (ordered c.y1 c.y2).1, y2 := (ordered c.y1 c.y2).2
    z1 := (ordered c.z1 c.z2).1, z2 := (ordered c.z1 c.z2).2 }

/-- Put the corners in order, hide, and set out. -/
def cuboidStart (t : Tunnel) : Iteration :=
  let c := cuboidSorted t.cuboid
  { next := .cuboidLoop t.hide ⟨.y, c.x1.toInt16, c.y1.toInt16, c.z1.toInt16⟩
    update := fun t => { t with hide := true, cuboid := cuboidSorted t.cuboid } }

def cuboidBounds (t : Tunnel) : Bounds :=
  ⟨t.cuboid.x1.toInt16, t.cuboid.z1.toInt16, t.cuboid.x2.toNat, t.cuboid.y2.toNat, t.cuboid.z2.toNat⟩

def cuboidStop (t : Tunnel) : Tunnel := { t with cuboid := { t.cuboid with start := false } }

/-- Where the cuboid goes when a loop is left. -/
def cuboidLeave (hidden : Bool) (l : Loops) : Iteration :=
  match l.leave with
  | some l' => { next := .cuboidLoop hidden l' }
  | none =>
      { next := .paste
        update := fun t => unhide hidden (cuboidStop t)
        calls := [.tunnelMsg (ascii "&0[&4LavaTunnel&0] &fz: Finished!")] }

/-- The innermost body: place the block where the map holds another one. -/
def cuboidBody (t : Tunnel) (l : Loops) : List BuilderCall :=
  if t.map (calculateOffset t l.vx l.vy l.vz) ≠ t.cuboid.block then
    [.setBlock l.vx l.vy l.vz t.cuboid.block (!t.cuboid.zlimit)]
  else []

def cuboidIteration (t : Tunnel) (hidden : Bool) (l : Loops) : Iteration :=
  if l.inside (cuboidBounds t) then
    if t.cuboid.halt then
      { cuboidLeave hidden l with update := fun t => (cuboidLeave hidden l).update (cuboidStop t) }
    else
      { next := .cuboidLoop hidden (l.enter (cuboidBounds t))
        calls := if l.level = .z then cuboidBody t l else [] }
  else cuboidLeave hidden l

/-! ## The thread -/

/-- From one loop condition to the next. -/
def builderIteration (env : Env) (t : Tunnel) : Pc → Iteration
  | .paste => if t.paste.start then pasteStart env t else { next := .copy }
  | .pasteLoop p l => pasteIteration env t p l
  | .copy => if t.copy.start then copyStart t else { next := .cuboid }
  | .copyLoop copyBuf l => copyIteration t copyBuf l
  | .copyWrite copyBuf => copyFinish env copyBuf
  | .cuboid => if t.cuboid.start ∧ t.cuboid.type = 0 then cuboidStart t else { next := .paste }
  | .cuboidLoop hidden l => cuboidIteration t hidden l
  | .crashed => { next := .crashed }

/-- Make a call. -/
def perform : BuilderCall → Code Unit
  | .setBlock x y z bid sendpos => setBlock x y z bid sendpos
  | .tunnelMsg msg => tunnelMsg msg

/-- One thread constantly checking if its respective bool's are true. -/
def builder (env : Env) (pc : Pc) : Code Pc := do
  let t ← getState
  let it := builderIteration env t pc
  update it.update
  forEach perform it.calls
  match it.next with
  | .crashed => Prog.exit
  | pc' => pure pc'

/-! ## The builder on its own -/

/-- The builder, what it shares, and the calls it has made. -/
structure Building where
  pc : Pc
  state : Tunnel
  calls : List BuilderCall := []

/-- One iteration. -/
def Building.next (env : Env) (b : Building) : Building :=
  let it := builderIteration env b.state b.pc
  ⟨it.next, it.update b.state, b.calls ++ it.calls⟩

/-- One iteration for each member of the list, which is what the other threads do to the shared state
    before it. -/
def Building.run (env : Env) : List (Tunnel → Tunnel) → Building → Building
  | [], b => b
  | f :: fs, b => Building.run env fs ({ b with state := f b.state }.next env)

/-- The calls of `setBlock` among some calls. -/
def setBlocks (calls : List BuilderCall) : List (Int16 × Int16 × Int16 × UInt8) :=
  calls.filterMap fun
    | .setBlock x y z bid _ => some (x, y, z, bid)
    | .tunnelMsg _ => none

end LavaTunnel
