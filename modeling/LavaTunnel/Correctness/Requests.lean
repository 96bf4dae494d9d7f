import LavaTunnel.Correctness.Commands
import LavaTunnel.Correctness.ServerHandlers

/-!
# `LavaTunnel.Correctness.Requests` — what the placement commands and the clicks do to the state

A cuboid, a copy and a paste are each requested by a command and then wait for clicks. `commanded` and
`clicked` are the shared state after a whole command and after a whole click. For `z`, `copy`, `paste` and
`cancel` the state is given in one piece here, and for a click as the three operations in turn, so that no
later proof has to look into the handlers.
-/

namespace LavaTunnel

open Wire Wire.Prog

/-- The state after a command. -/
def commanded (env : Env) (text : Bytes) (t : Tunnel) : Tunnel := ((commandFunc env text).run ([] : Bytes) t).state

/-- The state after a click. -/
def clicked (env : Env) (payload : Bytes) (t : Tunnel) : Tunnel := ((Server.setBlockClick env).run payload t).state

/-! ## The operations -/

/-- What can be requested. -/
inductive Op where
  | cuboid
  | copy
  | paste
deriving DecidableEq

/-- A block position as a click gives it. -/
abbrev Point := UInt16 × UInt16 × UInt16

/-- The operation waits for clicks. -/
def Op.place : Op → Tunnel → Bool
  | .cuboid, t => t.cuboid.place
  | .copy, t => t.copy.place
  | .paste, t => t.paste.place

/-- The operation is the builder's. -/
def Op.start : Op → Tunnel → Bool
  | .cuboid, t => t.cuboid.start
  | .copy, t => t.copy.start
  | .paste, t => t.paste.start

def Cuboid.corners (c : Cuboid) : List Point := [(c.x1, c.y1, c.z1), (c.x2, c.y2, c.z2)]

def Copy.corners (c : Copy) : List Point := [(c.x1, c.y1, c.z1), (c.x2, c.y2, c.z2)]

def Paste.corners (p : Paste) : List Point := [(p.x, p.y, p.z)]

/-- The corners of the operation. A paste has one. -/
def Op.corners : Op → Tunnel → List Point
  | .cuboid, t => t.cuboid.corners
  | .copy, t => t.copy.corners
  | .paste, t => t.paste.corners

/-! ## The commands -/

/-- The state after a `z` command: the cuboid waits for its first point. -/
def cuboidRequested (arg1 : Option Bytes) (t : Tunnel) : Tunnel :=
  zPending { t with cuboid :=
    match arg1 with
    | none => { t.cuboid with getBlock := true }
    | some block => { t.cuboid with block := getBid block, getBlock := false } }

/-- The state after a `copy` command. -/
def copyRequested (arg1 : Option Bytes) (t : Tunnel) : Tunnel :=
  match arg1 with
  | none => t
  | some name => { t with
      copy := { t.copy with chunkName := chunkFile name, halt := false, place := true }
      points := 0
      zPlace := true }

/-- The state after a `paste` command. -/
def pasteRequested (arg1 : Option Bytes) (t : Tunnel) : Tunnel :=
  match arg1 with
  | none => t
  | some name => { t with
      paste := { t.paste with chunkName := chunkFile name, place := true }
      zPlace := true }

section Dispatch

variable {env : Env} {text name : Bytes}

/-- A text whose first token is `name` is no text with another first token. -/
theorem ne_of_arg0 (h : arg0 text = some name) {s : Bytes} (hs : arg0 s ≠ some name) : text ≠ s := by
  rintro rfl
  exact hs h

theorem commandFunc_cancel : commandFunc env (ascii "cancel") = (do cmdCancel; pure true) := by
  unfold commandFunc
  rw [if_neg (by decide), if_neg (by decide), if_neg (by decide), if_neg (by decide), if_neg (by decide),
    if_pos rfl]

/-- The commands that take arguments, each under its name. -/
def argCommands (env : Env) (text : Bytes) : List (Bytes × Code Unit) :=
  [(ascii "tp", cmdTp (arg1 text)), (ascii "help", cmdHelp (arg1 text)),
    (ascii "plotmotion", cmdPlotmotion env (arg1 text) (arg2 text)), (ascii "paint", cmdPaint (arg1 text)),
    (ascii "paste", cmdPaste (arg1 text)), (ascii "copy", cmdCopy (arg1 text)), (ascii "z", cmdZ (arg1 text)),
    (ascii "zspeed", cmdZspeed (arg1 text)), (ascii "find", cmdFind env (arg1 text)),
    (ascii "ignore", cmdIgnore env (arg1 text)), (ascii "follow", cmdFollow env (arg1 text)),
    (ascii "spectate", cmdSpectate env (arg1 text))]

/-- **A command with arguments** is found by its first token. -/
theorem commandFunc_of_mem {c : Code Unit} (hmem : (name, c) ∈ argCommands env text) (h : arg0 text = some name) :
    commandFunc env text = (do c; pure true) := by
  simp only [argCommands, List.mem_cons, List.not_mem_nil, or_false, Prod.mk.injEq] at hmem
  -- one case a command: it is no text without arguments, and none of the names in front of its own
  rcases hmem with ⟨rfl, rfl⟩ | ⟨rfl, rfl⟩ | ⟨rfl, rfl⟩ | ⟨rfl, rfl⟩ | ⟨rfl, rfl⟩ | ⟨rfl, rfl⟩ | ⟨rfl, rfl⟩ |
    ⟨rfl, rfl⟩ | ⟨rfl, rfl⟩ | ⟨rfl, rfl⟩ | ⟨rfl, rfl⟩ | ⟨rfl, rfl⟩ <;>
  · unfold commandFunc
    rw [if_neg (ne_of_arg0 h (by decide)), if_neg (ne_of_arg0 h (by decide)), if_neg (ne_of_arg0 h (by decide)),
      if_neg (ne_of_arg0 h (by decide)), if_neg (ne_of_arg0 h (by decide)), if_neg (ne_of_arg0 h (by decide)), h]
    repeat rw [if_neg (by decide)]
    rw [if_pos rfl]

end Dispatch

section Commands

variable (env : Env) {text : Bytes} (t : Tunnel)

theorem commanded_cancel :
    commanded env (ascii "cancel") t = cancelled (if t.hide then { t with hide := false } else t) := by
  unfold commanded
  rw [commandFunc_cancel]
  unfold cmdCancel
  rw [run_bind_assoc, run_getState_bind]
  by_cases h : t.hide = true
  · rw [onlyIf_pos h, if_pos h]
    rfl
  · rw [onlyIf_neg h, if_neg h]
    rfl

theorem commanded_paste (h : arg0 text = some (ascii "paste")) :
    commanded env text t = pasteRequested (arg1 text) t := by
  unfold commanded
  rw [commandFunc_of_mem (c := cmdPaste (arg1 text)) (by simp [argCommands]) h]
  cases arg1 text with
  | none => rfl
  | some name => rfl

theorem commanded_copy (h : arg0 text = some (ascii "copy")) :
    commanded env text t = copyRequested (arg1 text) t := by
  unfold commanded
  rw [commandFunc_of_mem (c := cmdCopy (arg1 text)) (by simp [argCommands]) h]
  cases arg1 text with
  | none => rfl
  | some name => rfl

/-- No block is the unknown one. -/
theorem cmdZBlock_some (block : Bytes) : cmdZBlock (some block) = (do
    update (fun t => { t with cuboid := { t.cuboid with block := getBid block, getBlock := false } })
    tunnelMsg (lava "z: Place two points.")) :=
  if_pos (getBid_ne block)

theorem commanded_z (h : arg0 text = some (ascii "z")) :
    commanded env text t = cuboidRequested (arg1 text) t := by
  unfold commanded
  rw [commandFunc_of_mem (c := cmdZ (arg1 text)) (by simp [argCommands]) h]
  cases arg1 text with
  | none => rfl
  | some block =>
      unfold cmdZ
      rw [cmdZBlock_some]
      rfl

end Commands

/-! ## The clicks -/

/-- The position of a click. -/
def clickPoint (payload : Bytes) : Point :=
  (host (field payload 0 2), host (field payload 2 2), host (field payload 4 2))

/-- The first corner of a cuboid. -/
def cuboidFirst (p : Point) (t : Tunnel) : Tunnel :=
  { t with cuboid := { t.cuboid with x1 := p.1, y1 := p.2.1, z1 := p.2.2 }, points := 1 }

/-- The second corner of a cuboid, which starts it. -/
def cuboidSecond (p : Point) (blocktype : UInt8) (t : Tunnel) : Tunnel :=
  { t with
    cuboid := { t.cuboid with
      x2 := p.1, y2 := p.2.1, z2 := p.2.2
      block := if t.cuboid.getBlock then blocktype else t.cuboid.block
      place := false, start := true }
    points := 0
    zPlace := false }

/-- What the cuboid makes of a click. -/
def cuboidPointed (p : Point) (blocktype : UInt8) (t : Tunnel) : Tunnel :=
  if t.cuboid.place then
    if t.points = 0 then cuboidFirst p t else if t.points = 1 then cuboidSecond p blocktype t else t
  else t

/-- The point of a paste, which starts it. -/
def pasteOnly (p : Point) (t : Tunnel) : Tunnel :=
  { t with
    paste := { t.paste with x := p.1, y := p.2.1, z := p.2.2, place := false, start := true }
    zPlace := false }

/-- What the paste makes of a click. -/
def pastePointed (p : Point) (t : Tunnel) : Tunnel := if t.paste.place then pasteOnly p t else t

/-- The first corner of a copy. -/
def copyFirst (p : Point) (t : Tunnel) : Tunnel :=
  { t with copy := { t.copy with x1 := p.1, y1 := p.2.1, z1 := p.2.2 }, points := 1 }

/-- The second corner of a copy, which starts it. -/
def copySecond (p : Point) (t : Tunnel) : Tunnel :=
  { t with
    copy := { t.copy with x2 := p.1, y2 := p.2.1, z2 := p.2.2, place := false, start := true }
    points := 0
    zPlace := false }

/-- What the copy makes of a click. -/
def copyPointed (p : Point) (t : Tunnel) : Tunnel :=
  if t.copy.place then
    if t.points = 0 then copyFirst p t else if t.points = 1 then copySecond p t else t
  else t

/-- The three operations are asked in turn. -/
def pointed (p : Point) (blocktype : UInt8) (t : Tunnel) : Tunnel :=
  copyPointed p (pastePointed p (cuboidPointed p blocktype t))

section Pointed

variable (p : Point) (blocktype : UInt8) (t : Tunnel)

variable {t} in
theorem cuboidPointed_of_not (h : t.cuboid.place = false) : cuboidPointed p blocktype t = t :=
  if_neg (ne_true_of_eq_false h)

variable {t} in
theorem cuboidPointed_first (h : t.cuboid.place = true) (h0 : t.points = 0) :
    cuboidPointed p blocktype t = cuboidFirst p t := by
  unfold cuboidPointed
  rw [if_pos h, if_pos h0]

variable {t} in
theorem cuboidPointed_second (h : t.cuboid.place = true) (h1 : t.points = 1) :
    cuboidPointed p blocktype t = cuboidSecond p blocktype t := by
  unfold cuboidPointed
  rw [if_pos h, if_neg (by omega), if_pos h1]

variable {t} in
theorem pastePointed_of_not (h : t.paste.place = false) : pastePointed p t = t :=
  if_neg (ne_true_of_eq_false h)

variable {t} in
theorem pastePointed_only (h : t.paste.place = true) : pastePointed p t = pasteOnly p t := if_pos h

variable {t} in
theorem copyPointed_of_not (h : t.copy.place = false) : copyPointed p t = t :=
  if_neg (ne_true_of_eq_false h)

variable {t} in
theorem copyPointed_first (h : t.copy.place = true) (h0 : t.points = 0) :
    copyPointed p t = copyFirst p t := by
  unfold copyPointed
  rw [if_pos h, if_pos h0]

variable {t} in
theorem copyPointed_second (h : t.copy.place = true) (h1 : t.points = 1) :
    copyPointed p t = copySecond p t := by
  unfold copyPointed
  rw [if_pos h, if_neg (by omega), if_pos h1]

@[simp] theorem cuboidPointed_copy : (cuboidPointed p blocktype t).copy = t.copy := by
  unfold cuboidPointed
  split_ifs <;> rfl

@[simp] theorem cuboidPointed_paste : (cuboidPointed p blocktype t).paste = t.paste := by
  unfold cuboidPointed
  split_ifs <;> rfl

@[simp] theorem pastePointed_cuboid : (pastePointed p t).cuboid = t.cuboid := by
  unfold pastePointed
  split_ifs <;> rfl

@[simp] theorem pastePointed_copy : (pastePointed p t).copy = t.copy := by
  unfold pastePointed
  split_ifs <;> rfl

@[simp] theorem pastePointed_points : (pastePointed p t).points = t.points := by
  unfold pastePointed
  split_ifs <;> rfl

@[simp] theorem copyPointed_cuboid : (copyPointed p t).cuboid = t.cuboid := by
  unfold copyPointed
  split_ifs <;> rfl

@[simp] theorem copyPointed_paste : (copyPointed p t).paste = t.paste := by
  unfold copyPointed
  split_ifs <;> rfl

theorem pointed_cuboid : (pointed p blocktype t).cuboid = (cuboidPointed p blocktype t).cuboid := by
  simp only [pointed, copyPointed_cuboid, pastePointed_cuboid]

theorem pointed_paste : (pointed p blocktype t).paste = (pastePointed p t).paste := by
  simp only [pointed, copyPointed_paste]
  unfold pastePointed
  rw [cuboidPointed_paste]
  split_ifs
  · simp only [pasteOnly, cuboidPointed_paste]
  · exact cuboidPointed_paste p blocktype t

variable {t} in
theorem pointed_copy_of_not (h : t.copy.place = false) : (pointed p blocktype t).copy = t.copy := by
  unfold pointed
  rw [copyPointed_of_not p (by rw [pastePointed_copy, cuboidPointed_copy, h]), pastePointed_copy,
    cuboidPointed_copy]

end Pointed

/-- A step that is announced. -/
theorem takes_announced (f : Tunnel → Tunnel) (msg : Bytes) (t : Tunnel) : ∃ out,
    (do update f; tunnelMsg msg : Code Unit).Takes [] t (some ()) (f t) out :=
  ⟨written serverSock [.send [0x0d], .send [0], .send (toMCString msg)], fun _ => run_packet _ _ _ _⟩

section Clicks

variable (x y z : UInt16) (blocktype : UInt8) (t : Tunnel)

/-- An operation that waits for two points takes a click as the first or as the second one. -/
theorem takes_twoPoints (place : Tunnel → Bool) (first second : Tunnel → Tunnel) (said said' : Bytes) : ∃ out,
    (do let t ← getState
        if place t then
          if t.points = 0 then
            update first
            tunnelMsg said
          else if t.points = 1 then
            update second
            tunnelMsg said' : Code Unit).Takes [] t (some ())
      (if place t then if t.points = 0 then first t else if t.points = 1 then second t else t else t) out := by
  refine Exists.imp (fun _ => Takes.getState_bind) ?_
  by_cases hplace : place t = true
  · rw [if_pos hplace, if_pos hplace]
    by_cases h0 : t.points = 0
    · rw [if_pos h0, if_pos h0]
      exact takes_announced first said t
    · rw [if_neg h0, if_neg h0]
      by_cases h1 : t.points = 1
      · rw [if_pos h1, if_pos h1]
        exact takes_announced second said' t
      · rw [if_neg h1, if_neg h1]
        exact ⟨[], Takes.pure ()⟩
  · rw [if_neg hplace, if_neg hplace]
    exact ⟨[], Takes.pure ()⟩

theorem takes_cuboidPoint : ∃ out,
    (Server.cuboidPoint x y z blocktype).Takes [] t (some ()) (cuboidPointed (x, y, z) blocktype t) out :=
  takes_twoPoints t (fun t => t.cuboid.place) _ _ _ _

theorem takes_pastePoint : ∃ out,
    (Server.pastePoint x y z).Takes [] t (some ()) (pastePointed (x, y, z) t) out := by
  unfold Server.pastePoint pastePointed
  by_cases hplace : t.paste.place = true
  · refine Exists.imp (fun _ => Takes.getState_bind) ?_
    rw [if_pos hplace, if_pos hplace]
    exact ⟨written serverSock [.send [0x0d], .send [0],
      .send (toMCString (lava "paste: pasting " ++ cstr t.paste.chunkName))], fun _ => rfl⟩
  · refine Exists.imp (fun _ => Takes.getState_bind) ?_
    rw [if_neg hplace, if_neg hplace]
    exact ⟨[], Takes.pure ()⟩

theorem takes_copyPoint : ∃ out,
    (Server.copyPoint x y z).Takes [] t (some ()) (copyPointed (x, y, z) t) out :=
  takes_twoPoints t (fun t => t.copy.place) _ _ _ _

/-- Putting the block back changes nothing. -/
theorem takes_revert (x y z : Bytes) : ∃ out, (Server.revert x y z).Takes [] t (some ()) t out :=
  ⟨_, Takes.getState_bind fun _ => run_packet _ _ _ _⟩

theorem takes_point (x y z : Bytes) : ∃ out, (Server.point x y z blocktype).Takes [] t (some ())
    (pointed (host x, host y, host z) blocktype t) out := by
  obtain ⟨out₁, h₁⟩ := takes_cuboidPoint (host x) (host y) (host z) blocktype t
  obtain ⟨out₂, h₂⟩ := takes_pastePoint (host x) (host y) (host z)
    (cuboidPointed (host x, host y, host z) blocktype t)
  obtain ⟨out₃, h₃⟩ := takes_copyPoint (host x) (host y) (host z)
    (pastePointed (host x, host y, host z) (cuboidPointed (host x, host y, host z) blocktype t))
  obtain ⟨out₄, h₄⟩ := takes_revert (pointed (host x, host y, host z) blocktype t) x y z
  exact ⟨_, h₁.then (h₂.then (h₃.then (h₄.then (h₄.then h₄))))⟩

end Clicks

section Clicked

variable (env : Env) {payload : Bytes} {t : Tunnel}

/-- A click that no operation waits for is passed on. -/
theorem clicked_of_not_zPlace (h : payload.length = 8) (hz : t.zPlace = false) : clicked env payload t = t := by
  have hrun := Server.takes_setBlockClick env t hz h []
  rw [List.append_nil] at hrun
  unfold clicked
  rw [hrun]

theorem clicked_of_zPlace (h : payload.length = 8) (hz : t.zPlace = true) :
    clicked env payload t = pointed (clickPoint payload) (byte (field payload 7 1)) t := by
  obtain ⟨out, hpoint⟩ := takes_point (byte (field payload 7 1)) t (field payload 0 2) (field payload 2 2)
    (field payload 4 2)
  have hrun := Server.takes_setBlockClick_point env t hz h hpoint []
  rw [List.append_nil] at hrun
  unfold clicked
  rw [hrun]
  rfl

end Clicked

end LavaTunnel
