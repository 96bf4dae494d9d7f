import LavaTunnel.Correctness.Cuboid
import LavaTunnel.Correctness.Placement

/-!
# `LavaTunnel.Correctness.Isolation` — operations that run while others are requested

The builder reads the corners of its operation anew in every loop condition, and clears the start flag at the end.
Commands and clicks write the same fields. So an operation is executed as it was started just as long as nobody
requests another one of its kind before it has ended; requests of the other kinds do not matter, as long as the names
in them fit.

The life of one operation is followed through a run (`Life`): it waits with its job as it was started, then the
builder does for it what it would do alone (`lockstep`), and at the end the flag is down.
-/

namespace LavaTunnel

open Wire Wire.Prog

/-! ## The runs -/

/-- An iteration of the builder, a command, or a click. A command with a name of more than 50 letters, which writes over
    the flags behind `chunkName`, is none of them. -/
inductive Move where
  | build
  | command (text : Bytes) (h : NameFits text)
  | click (payload : Bytes) (h : payload.length = 8)

/-- The builder and what it shares after a move. -/
def Move.step (env : Env) : Move → Building → Building
  | .build, b => b.next env
  | .command text _, b => { b with state := commanded env text b.state }
  | .click payload _, b => { b with state := clicked env payload b.state }

/-- After a run. -/
def moved (env : Env) : List Move → Building → Building
  | [], b => b
  | m :: ms, b => moved env ms (m.step env b)

/-! ## The operation and its job -/

/-- The builder is about to look at the flag of the operation. -/
def Op.atTest : Op → Pc → Bool
  | .paste, .paste => true
  | .copy, .copy => true
  | .cuboid, .cuboid => true
  | _, _ => false

/-- The builder is at work on the operation. -/
def Op.within : Op → Pc → Bool
  | .paste, .pasteLoop _ _ => true
  | .copy, .copyLoop _ _ => true
  | .copy, .copyWrite _ => true
  | .cuboid, .cuboidLoop _ _ => true
  | _, _ => false

/-- The corners, the block or the name of an operation, and whether it is to be built. -/
inductive Job where
  | cuboid (c : Cuboid)
  | copy (c : Copy)
  | paste (p : Paste)

/-- The job of an operation, without what a next request may set already. A paste has read its chunk when it is at
    work. -/
def Op.job : Op → Building → Job
  | .cuboid, b => .cuboid { b.state.cuboid with place := false, getBlock := false, zlimit := false, zspeed := 0 }
  | .copy, b => .copy { b.state.copy with place := false, halt := false }
  | .paste, b => .paste { b.state.paste with
      place := false
      chunkName := if Op.paste.within b.pc then [] else b.state.paste.chunkName }

/-- The operation is to stop. The copy does not look at its flag. -/
def Op.halted : Op → Tunnel → Bool
  | .cuboid, t => t.cuboid.halt
  | .copy, _ => false
  | .paste, t => t.paste.halt

/-- Nothing keeps the builder from it. -/
structure Op.Ready (o : Op) (t : Tunnel) : Prop where
  halted : o.halted t = false
  type : o = .cuboid → t.cuboid.type = 0

/-! ## Who disturbs whom -/

/-- The command gives the operation another block or name. -/
def Op.Renewed (o : Op) (text : Bytes) (b : Building) : Prop :=
  match o with
  | .cuboid => arg0 text = some (ascii "z") ∧ ∃ block, arg1 text = some block ∧ getBid block ≠ b.state.cuboid.block
  | .copy => arg0 text = some (ascii "copy") ∧ ∃ name, arg1 text = some name ∧ chunkFile name ≠ b.state.copy.chunkName
  | .paste => arg0 text = some (ascii "paste") ∧ Op.paste.within b.pc = false ∧
      ∃ name, arg1 text = some name ∧ chunkFile name ≠ b.state.paste.chunkName

/-- The builder could not even begin: the chunk is missing, or too big to be copied. -/
def Op.Hopeless : Op → Tunnel → Prop
  | .cuboid, _ => False
  | .copy, t => copySize (copySorted t.copy) < 0
  | .paste, t => t.files (cstr t.paste.chunkName) = none

/-- The move leaves the operation to the builder: nothing is cancelled, its block or name is not given anew, no click
    goes to it, and the builder can begin. -/
def Op.Spared (o : Op) (b : Building) : Move → Prop
  | .build => o.atTest b.pc = true → ¬ o.Hopeless b.state
  | .command text _ => text ≠ ascii "cancel" ∧ ¬ o.Renewed text b
  | .click _ _ => b.state.zPlace = true → o.place b.state = false

/-- Every move of the run does. -/
def Undisturbed (env : Env) (o : Op) : List Move → Building → Prop
  | [], _ => True
  | m :: ms, b => o.Spared b m ∧ Undisturbed env o ms (m.step env b)

/-! ## The life of an operation -/

/-- Where an operation is. While it is at work, `alone` is the builder as it would stand without anybody else, and
    `before` are the blocks placed before. -/
inductive Life where
  | waiting (job : Job)
  | working (before : List (Int16 × Int16 × Int16 × UInt8)) (alone : Building)
  | ended (before : List (Int16 × Int16 × Int16 × UInt8)) (alone : Building)
  | past

/-- At work, or at the end of it. -/
def Life.worked (o : Op) (before : List (Int16 × Int16 × Int16 × UInt8)) (alone : Building) : Life :=
  if o.within alone.pc then .working before alone else .ended before alone

/-- The next part of a life. -/
def Life.next (env : Env) (o : Op) : Move → Building → Life → Life
  | .build, b, .waiting job =>
      if o.atTest b.pc then
        Life.worked o (setBlocks b.calls) (Building.next env ⟨b.pc, b.state, []⟩)
      else .waiting job
  | .build, _, .working before alone => Life.worked o before (alone.next env)
  | _, _, .ended _ _ => .past
  | _, _, life => life

/-- What a copy has written. -/
def Op.written : Op → Tunnel → Option (Bytes × Option Bytes)
  | .copy, t => some (t.copy.chunkName, t.files (cstr t.copy.chunkName))
  | _, _ => none

/-- What should be so: an operation waits with the job it was started with, what is placed is what would be placed
    alone, and at the end the flag is down and a copy is written. -/
def Life.Holds (o : Op) (b : Building) : Life → Prop
  | .waiting job => o.job b = job ∧ o.start b.state = true ∧ o.Ready b.state
  | .working before alone => b.pc = alone.pc ∧ setBlocks b.calls = before ++ setBlocks alone.calls
  | .ended before alone => b.pc = alone.pc ∧ setBlocks b.calls = before ++ setBlocks alone.calls ∧
      o.start b.state = false ∧ o.written b.state = o.written alone.state
  | .past => True

/-- It is so at every moment of the run. -/
def Lives (env : Env) (o : Op) : List Move → Building → Life → Prop
  | [], b, life => life.Holds o b
  | m :: ms, b, life => life.Holds o b ∧ Lives env o ms (m.step env b) (life.next env o m b)

/-! ## Requests and the job -/

section Event

variable {env : Env} {o : Op} {b : Building}

/-- What the builder reads and nobody requests. -/
def Tunnel.ground (t : Tunnel) : (Int → UInt8) × UInt16 × UInt16 := (t.map, t.lvlx, t.lvlz)

/-- A command that keeps something as local code keeps it. -/
theorem kept_commanded {κ : Type} {kept : Tunnel → κ} {P : Socket → Bytes → Prop} {text : Bytes}
    (h : (commandFunc env text).Local kept P) (t : Tunnel) : kept (commanded env text t) = kept t := by
  obtain ⟨r, t', out, htakes, hkept⟩ := h.takes t
  have hrun : commanded env text t = t' := congrArg Outcome.state (htakes [])
  rw [hrun, hkept]

theorem ground_commanded (text : Bytes) (t : Tunnel) : (commanded env text t).ground = t.ground :=
  congrArg (fun k => (k.1, k.2.2.1, k.2.2.2.2.1)) (kept_commanded (isCommand_commandFunc env text) t)

/-- The job is read off what is to be built. -/
theorem job_congr {t : Tunnel} (h : t.builds = b.state.builds) : o.job { b with state := t } = o.job b := by
  simp only [Tunnel.builds, Prod.mk.injEq] at h
  obtain ⟨hcuboid, hcopy, hpaste⟩ := h
  cases o with
  | cuboid =>
      have hsame := congrArg (fun c : Cuboid => { c with place := false, getBlock := false }) hcuboid
      exact congrArg Job.cuboid hsame
  | copy =>
      show Job.copy { t.copy with place := false, halt := false } = _
      rw [hcopy]
      rfl
  | paste =>
      unfold Op.job
      dsimp only
      rw [hpaste]

/-- A `z` with the block of the cuboid leaves its job alone. -/
theorem job_z {text : Bytes} (htext : arg0 text = some (ascii "z")) (hready : o.Ready b.state)
    (hrenewed : ¬ o.Renewed text b) : o.job { b with state := cuboidRequested (arg1 text) b.state } = o.job b := by
  cases o with
  | cuboid =>
      have hhalt : b.state.cuboid.halt = false := hready.halted
      have htype : b.state.cuboid.type = 0 := hready.type rfl
      cases harg : arg1 text with
      | none =>
          simp only [Op.job, cuboidRequested, zPending, hhalt, htype]
      | some block =>
          have hblock : getBid block = b.state.cuboid.block := by
            by_contra hne
            exact hrenewed ⟨htext, block, harg, hne⟩
          simp only [Op.job, cuboidRequested, zPending, hhalt, htype, hblock]
  | copy => rfl
  | paste => rfl

/-- So does a `copy` with its name. -/
theorem job_copy {text : Bytes} (htext : arg0 text = some (ascii "copy")) (hrenewed : ¬ o.Renewed text b) :
    o.job { b with state := copyRequested (arg1 text) b.state } = o.job b := by
  cases harg : arg1 text with
  | none => rfl
  | some name =>
      cases o with
      | cuboid => rfl
      | copy =>
          have hname : chunkFile name = b.state.copy.chunkName := by
            by_contra hne
            exact hrenewed ⟨htext, name, harg, hne⟩
          show Job.copy { b.state.copy with chunkName := chunkFile name, halt := false, place := false } = _
          rw [hname]
          rfl
      | paste => rfl

/-- And a `paste` with its name, or once the chunk has been read. -/
theorem job_paste {text : Bytes} (htext : arg0 text = some (ascii "paste")) (hrenewed : ¬ o.Renewed text b) :
    o.job { b with state := pasteRequested (arg1 text) b.state } = o.job b := by
  cases harg : arg1 text with
  | none => rfl
  | some name =>
      cases o with
      | cuboid => rfl
      | copy => rfl
      | paste =>
          show Job.paste { b.state.paste with
            place := false
            chunkName := if Op.paste.within b.pc then [] else chunkFile name } = _
          cases hwithin : Op.paste.within b.pc with
          | true =>
              unfold Op.job
              dsimp only
              rw [hwithin]
              rfl
          | false =>
              have hname : chunkFile name = b.state.paste.chunkName := by
                by_contra hne
                exact hrenewed ⟨htext, hwithin, name, harg, hne⟩
              unfold Op.job
              dsimp only
              rw [hwithin, hname]

/-- **A command** that spares the operation leaves its job alone. -/
theorem job_command {text : Bytes} {hfits : NameFits text} (hready : o.Ready b.state)
    (h : o.Spared b (.command text hfits)) :
    o.job { b with state := commanded env text b.state } = o.job b := by
  obtain ⟨hcancel, hrenewed⟩ := h
  by_cases hz : arg0 text = some (ascii "z")
  · rw [commanded_z env b.state hz]
    exact job_z hz hready hrenewed
  · by_cases hcopy : arg0 text = some (ascii "copy")
    · rw [commanded_copy env b.state hcopy]
      exact job_copy hcopy hrenewed
    · by_cases hpaste : arg0 text = some (ascii "paste")
      · rw [commanded_paste env b.state hpaste]
        exact job_paste hpaste hrenewed
      · exact job_congr (kept_commanded (builds_commandFunc env hcancel hpaste hcopy hz) b.state)

theorem ground_cuboidPointed (p : Point) (blocktype : UInt8) (t : Tunnel) :
    (cuboidPointed p blocktype t).ground = t.ground := by
  unfold cuboidPointed
  split_ifs <;> rfl

theorem ground_pastePointed (p : Point) (t : Tunnel) : (pastePointed p t).ground = t.ground := by
  unfold pastePointed
  split_ifs <;> rfl

theorem ground_copyPointed (p : Point) (t : Tunnel) : (copyPointed p t).ground = t.ground := by
  unfold copyPointed
  split_ifs <;> rfl

theorem ground_pointed (p : Point) (blocktype : UInt8) (t : Tunnel) : (pointed p blocktype t).ground = t.ground := by
  unfold pointed
  rw [ground_copyPointed, ground_pastePointed, ground_cuboidPointed]

/-- **A click** that does not go to the operation leaves its job alone. -/
theorem job_click {payload : Bytes} (hlen : payload.length = 8) (h : o.Spared b (.click payload hlen)) :
    o.job { b with state := clicked env payload b.state } = o.job b := by
  -- a click records corners only with `/z place`, and only for the operation that waits for them
  cases hz : b.state.zPlace with
  | false => rw [clicked_of_not_zPlace env hlen hz]
  | true =>
      have hplace : o.place b.state = false := h hz
      rw [clicked_of_zPlace env hlen hz]
      cases o with
      | cuboid =>
          unfold Op.job
          dsimp only
          rw [pointed_cuboid, cuboidPointed_of_not _ _ hplace]
      | copy =>
          unfold Op.job
          dsimp only
          rw [pointed_copy_of_not _ _ hplace]
      | paste =>
          unfold Op.job
          dsimp only
          rw [pointed_paste, pastePointed_of_not _ hplace]

theorem ground_clicked {payload : Bytes} (hlen : payload.length = 8) (t : Tunnel) :
    (clicked env payload t).ground = t.ground := by
  cases hz : t.zPlace with
  | false => rw [clicked_of_not_zPlace env hlen hz]
  | true => rw [clicked_of_zPlace env hlen hz, ground_pointed]

end Event

/-! ## The builder and the job -/

/-- What an operation is stored in. -/
def Op.record : Op → Tunnel → Job
  | .cuboid, t => .cuboid t.cuboid
  | .copy, t => .copy t.copy
  | .paste, t => .paste t.paste

section Iteration

variable {env : Env} {t : Tunnel} {o : Op} {pc next : Pc} {f : Tunnel → Tunnel}

/-- A step elsewhere leaves the operation alone. -/
theorem BuilderStep.elsewhere (h : BuilderStep env t pc next f) (hat : o.atTest pc = false)
    (hwithin : o.within pc = false) : (∀ s, o.record (f s) = o.record s) ∧ o.within next = false := by
  cases o with
  | paste =>
      cases h with
      | pasteIdle | pasteCrash | pasteStart => exact Bool.noConfusion hat
      | pasteOn | pasteHalt | pasteEnd => exact Bool.noConfusion hwithin
      | _ => exact ⟨fun _ => rfl, rfl⟩
  | copy =>
      cases h with
      | copyIdle | copyCrash | copyStart => exact Bool.noConfusion hat
      | copyOn | copyDone | copyFinish => exact Bool.noConfusion hwithin
      | _ => exact ⟨fun _ => rfl, rfl⟩
  | cuboid =>
      cases h with
      | cuboidIdle | cuboidStart => exact Bool.noConfusion hat
      | cuboidOn | cuboidHalt | cuboidEnd => exact Bool.noConfusion hwithin
      | _ => exact ⟨fun _ => rfl, rfl⟩

/-- Nobody halts the builder but `cancel`, and the ground is the server's. -/
theorem BuilderStep.kept (h : BuilderStep env t pc next f) (s : Tunnel) :
    ((f s).cuboid.halt = s.cuboid.halt ∧ (f s).cuboid.type = s.cuboid.type ∧ (f s).paste.halt = s.paste.halt) ∧
      (f s).ground = s.ground := by
  cases h <;> exact ⟨⟨rfl, rfl, rfl⟩, rfl⟩

end Iteration

/-! ## The builder alone and not alone -/

/-- Two iterations of an operation that nobody can tell apart: the same way, the same blocks, and the same job, or the
    same end. -/
structure SameIteration (o : Op) (t s : Tunnel) (i j : Iteration) : Prop where
  next : i.next = j.next
  calls : setBlocks i.calls = setBlocks j.calls
  job : o.within i.next = true → o.job ⟨i.next, i.update t, []⟩ = o.job ⟨j.next, j.update s, []⟩
  done : o.within i.next = false → o.start (i.update t) = false ∧ o.written (i.update t) = o.written (j.update s)

section Lockstep

variable {env : Env} {t s : Tunnel}

theorem block_congr (h : t.ground = s.ground) (x y z : Int16) :
    t.map (calculateOffset t x y z) = s.map (calculateOffset s x y z) := by
  simp only [Tunnel.ground, Prod.mk.injEq] at h
  obtain ⟨hmap, hlvlx, hlvlz⟩ := h
  unfold calculateOffset
  rw [hmap, hlvlx, hlvlz]

theorem lockstep_cuboid {hidden : Bool} {l : Loops}
    (hjob : Op.cuboid.job ⟨.cuboidLoop hidden l, t, []⟩ = Op.cuboid.job ⟨.cuboidLoop hidden l, s, []⟩)
    (hground : t.ground = s.ground) :
    SameIteration .cuboid t s (cuboidIteration t hidden l) (cuboidIteration s hidden l) := by
  have hc := Job.cuboid.inj hjob
  have hstopped : Op.cuboid.job ⟨.cuboidLoop hidden l, cuboidStop t, []⟩ =
      Op.cuboid.job ⟨.cuboidLoop hidden l, cuboidStop s, []⟩ := by
    have h := congrArg (fun c : Cuboid => Job.cuboid { c with start := false }) hc
    exact h
  -- the two agree on the fields that the loop reads
  simp only [Cuboid.mk.injEq] at hc
  obtain ⟨hx1, hy1, hz1, hx2, hy2, hz2, hblock, -, -, hhalt, -⟩ := hc
  have hbounds : cuboidBounds t = cuboidBounds s := by
    unfold cuboidBounds
    rw [hx1, hz1, hx2, hy2, hz2]
  have hbody : setBlocks (cuboidBody t l) = setBlocks (cuboidBody s l) := by
    unfold cuboidBody
    rw [block_congr hground, hblock]
    split_ifs <;> rfl
  unfold cuboidIteration
  rw [hbounds, hhalt]
  split_ifs
  · -- halted
    unfold cuboidLeave
    cases l.leave with
    | some l' => exact ⟨rfl, rfl, fun _ => hstopped, fun h => Bool.noConfusion h⟩
    | none => exact ⟨rfl, rfl, fun h => Bool.noConfusion h, fun _ => ⟨rfl, rfl⟩⟩
  · exact ⟨rfl, hbody, fun _ => hjob, fun h => Bool.noConfusion h⟩
  · exact ⟨rfl, rfl, fun _ => hjob, fun h => Bool.noConfusion h⟩
  · unfold cuboidLeave
    cases l.leave with
    | some l' => exact ⟨rfl, rfl, fun _ => hjob, fun h => Bool.noConfusion h⟩
    | none => exact ⟨rfl, rfl, fun h => Bool.noConfusion h, fun _ => ⟨rfl, rfl⟩⟩

theorem lockstep_paste {p : Pasting} {l : Loops}
    (hjob : Op.paste.job ⟨.pasteLoop p l, t, []⟩ = Op.paste.job ⟨.pasteLoop p l, s, []⟩) :
    SameIteration .paste t s (pasteIteration env t p l) (pasteIteration env s p l) := by
  have hp := Job.paste.inj hjob
  have hstopped : Op.paste.job ⟨.pasteLoop p l, pasteStop t, []⟩ =
      Op.paste.job ⟨.pasteLoop p l, pasteStop s, []⟩ := by
    have h := congrArg (fun q : Paste => Job.paste { q with start := false }) hp
    exact h
  -- the two agree on the fields that the loop reads
  simp only [Paste.mk.injEq] at hp
  obtain ⟨hx, hy, hz, -, -, -, hhalt⟩ := hp
  have hbounds : pasteBounds t p = pasteBounds s p := by
    unfold pasteBounds
    rw [hx, hz]
  unfold pasteIteration
  rw [hbounds, hhalt]
  split_ifs
  · -- halted
    unfold pasteLeave
    cases l.leave with
    | some l' => exact ⟨rfl, rfl, fun _ => hstopped, fun h => Bool.noConfusion h⟩
    | none => exact ⟨rfl, rfl, fun h => Bool.noConfusion h, fun _ => ⟨rfl, rfl⟩⟩
  · exact ⟨rfl, rfl, fun _ => hjob, fun h => Bool.noConfusion h⟩
  · exact ⟨rfl, rfl, fun _ => hjob, fun h => Bool.noConfusion h⟩
  · unfold pasteLeave
    cases l.leave with
    | some l' => exact ⟨rfl, rfl, fun _ => hjob, fun h => Bool.noConfusion h⟩
    | none => exact ⟨rfl, rfl, fun h => Bool.noConfusion h, fun _ => ⟨rfl, rfl⟩⟩

theorem lockstep_copy {copyBuf : Bytes} {l : Loops}
    (hjob : Op.copy.job ⟨.copyLoop copyBuf l, t, []⟩ = Op.copy.job ⟨.copyLoop copyBuf l, s, []⟩)
    (hground : t.ground = s.ground) :
    SameIteration .copy t s (copyIteration t copyBuf l) (copyIteration s copyBuf l) := by
  have hc := Job.copy.inj hjob
  simp only [Copy.mk.injEq] at hc
  obtain ⟨hx1, hy1, hz1, hx2, hy2, hz2, -⟩ := hc
  have hbounds : copyBounds t = copyBounds s := by
    unfold copyBounds
    rw [hx1, hz1, hx2, hy2, hz2]
  unfold copyIteration
  rw [hbounds, block_congr hground]
  split_ifs
  · exact ⟨rfl, rfl, fun _ => hjob, fun h => Bool.noConfusion h⟩
  · exact ⟨rfl, rfl, fun _ => hjob, fun h => Bool.noConfusion h⟩
  · cases l.leave with
    | some l' => exact ⟨rfl, rfl, fun _ => hjob, fun h => Bool.noConfusion h⟩
    | none => exact ⟨rfl, rfl, fun _ => hjob, fun h => Bool.noConfusion h⟩

theorem lockstep_copyFinish {copyBuf : Bytes}
    (hjob : Op.copy.job ⟨.copyWrite copyBuf, t, []⟩ = Op.copy.job ⟨.copyWrite copyBuf, s, []⟩) :
    SameIteration .copy t s (copyFinish env copyBuf) (copyFinish env copyBuf) := by
  have hc := Job.copy.inj hjob
  simp only [Copy.mk.injEq] at hc
  obtain ⟨-, -, -, -, -, -, hname, hsize, -⟩ := hc
  refine ⟨rfl, rfl, fun h => Bool.noConfusion h, fun _ => ⟨rfl, ?_⟩⟩
  have hwritten : ∀ u : Tunnel, Op.copy.written ((copyFinish env copyBuf).update u) =
      some (u.copy.chunkName, some (env.fill u.copy.size.toNat copyBuf)) := by
    intro u
    exact congrArg (fun c => some (u.copy.chunkName, c)) (Function.update_self (cstr u.copy.chunkName) _ _)
  rw [hwritten, hwritten, hname, hsize]

variable (env) in
/-- **Lockstep.** With the same job on the same ground the builder does the same. -/
theorem lockstep {o : Op} {pc : Pc} (hwithin : o.within pc = true)
    (hjob : o.job ⟨pc, t, []⟩ = o.job ⟨pc, s, []⟩) (hground : t.ground = s.ground) :
    SameIteration o t s (builderIteration env t pc) (builderIteration env s pc) := by
  cases o with
  | cuboid =>
      cases pc with
      | cuboidLoop hidden l => exact lockstep_cuboid hjob hground
      | _ => exact absurd hwithin (by simp [Op.within])
  | copy =>
      cases pc with
      | copyLoop copyBuf l => exact lockstep_copy hjob hground
      | copyWrite copyBuf => exact lockstep_copyFinish hjob
      | _ => exact absurd hwithin (by simp [Op.within])
  | paste =>
      cases pc with
      | pasteLoop p l => exact lockstep_paste hjob
      | _ => exact absurd hwithin (by simp [Op.within])

end Lockstep

/-! ## From the start to the end -/

section Life

variable {env : Env} {o : Op} {b b' : Building} {life : Life}

/-- The job does not look at the calls. -/
theorem job_of_record {t s : Tunnel} {pc pc' : Pc} (calls calls' : List BuilderCall)
    (hrecord : o.record t = o.record s) (hwithin : o.within pc = o.within pc') :
    o.job ⟨pc, t, calls⟩ = o.job ⟨pc', s, calls'⟩ := by
  cases o with
  | cuboid =>
      have h := congrArg (fun c : Cuboid => Job.cuboid { c with
        place := false, getBlock := false, zlimit := false, zspeed := 0 }) (Job.cuboid.inj hrecord)
      exact h
  | copy =>
      have h := congrArg (fun c : Copy => Job.copy { c with place := false, halt := false }) (Job.copy.inj hrecord)
      exact h
  | paste =>
      have hpaste : t.paste = s.paste := Job.paste.inj hrecord
      unfold Op.job
      dsimp only
      rw [hpaste, hwithin]

/-- The start flag belongs to the job. -/
theorem start_of_job (h : o.job b' = o.job b) : o.start b'.state = o.start b.state := by
  cases o with
  | cuboid =>
      have h := congrArg Cuboid.start (Job.cuboid.inj h)
      exact h
  | copy =>
      have h := congrArg Copy.start (Job.copy.inj h)
      exact h
  | paste =>
      have h := congrArg Paste.start (Job.paste.inj h)
      exact h

/-- So does what keeps the builder from it. -/
theorem ready_of_job (h : o.job b' = o.job b) (hready : o.Ready b.state) : o.Ready b'.state := by
  obtain ⟨hhalted, htype⟩ := hready
  cases o with
  | cuboid =>
      have hhalt := congrArg Cuboid.halt (Job.cuboid.inj h)
      have hsame := congrArg Cuboid.type (Job.cuboid.inj h)
      exact ⟨hhalt.trans hhalted, fun _ => hsame.trans (htype rfl)⟩
  | copy => exact ⟨rfl, fun hne => Op.noConfusion hne⟩
  | paste =>
      have hhalt := congrArg Paste.halt (Job.paste.inj h)
      exact ⟨hhalt.trans hhalted, fun hne => Op.noConfusion hne⟩

/-- The builder does not change it, either. -/
theorem ready_iteration (t : Tunnel) (pc : Pc) (hready : o.Ready t) :
    o.Ready ((builderIteration env t pc).update t) := by
  obtain ⟨⟨hhalt, hsame, hpaste⟩, -⟩ := (builderStep env t pc).kept t
  obtain ⟨hhalted, htype⟩ := hready
  cases o with
  | cuboid => exact ⟨hhalt.trans hhalted, fun _ => hsame.trans (htype rfl)⟩
  | copy => exact ⟨rfl, fun hne => Op.noConfusion hne⟩
  | paste => exact ⟨hpaste.trans hhalted, fun hne => Op.noConfusion hne⟩

variable (env) in
/-- **The builder begins** when it looks at a flag that is up. -/
theorem begins {t : Tunnel} {pc : Pc} (hat : o.atTest pc = true) (hstart : o.start t = true) (hready : o.Ready t)
    (hhope : ¬ o.Hopeless t) : o.within (builderIteration env t pc).next = true := by
  cases o with
  | cuboid =>
      cases pc with
      | cuboid =>
          rw [iteration_cuboid_start env hstart (hready.type rfl)]
          rfl
      | _ => exact Bool.noConfusion hat
  | copy =>
      cases pc with
      | copy =>
          have hsize : ¬ copySize (copySorted t.copy) < 0 := hhope
          rw [iteration_copy_start env hstart]
          unfold copyStart
          dsimp only
          rw [if_neg hsize]
          rfl
      | _ => exact Bool.noConfusion hat
  | paste =>
      cases pc with
      | paste =>
          rw [iteration_paste_start env hstart]
          unfold pasteStart
          cases hfile : t.files (cstr t.paste.chunkName) with
          | none => exact absurd hfile hhope
          | some chunk => rfl
      | _ => exact Bool.noConfusion hat

/-- What carries `Life.Holds` through a run. -/
def Life.Inv (o : Op) (b : Building) : Life → Prop
  | .waiting job => (Life.waiting job).Holds o b ∧ o.within b.pc = false
  | .working before alone => (Life.working before alone).Holds o b ∧ o.within b.pc = true ∧
      o.job b = o.job ⟨b.pc, alone.state, []⟩ ∧ b.state.ground = alone.state.ground ∧ o.Ready b.state
  | .ended before alone => (Life.ended before alone).Holds o b
  | .past => True

theorem Life.Inv.holds (h : life.Inv o b) : life.Holds o b := by
  cases life with
  | waiting job => exact h.1
  | working before alone => exact h.1
  | ended before alone => exact h
  | past => trivial

/-- After an iteration that is the same alone. -/
theorem inv_worked {t s : Tunnel} {i j : Iteration} {calls aloneCalls : List BuilderCall}
    {before : List (Int16 × Int16 × Int16 × UInt8)} (h : SameIteration o t s i j)
    (hcalls : setBlocks calls = before ++ setBlocks aloneCalls)
    (hground : (i.update t).ground = (j.update s).ground) (hready : o.Ready (i.update t)) :
    (Life.worked o before ⟨j.next, j.update s, aloneCalls ++ j.calls⟩).Inv o
      ⟨i.next, i.update t, calls ++ i.calls⟩ := by
  have hblocks : setBlocks (calls ++ i.calls) = before ++ setBlocks (aloneCalls ++ j.calls) := by
    rw [setBlocks_append, setBlocks_append, hcalls, h.calls, List.append_assoc]
  unfold Life.worked
  -- the job goes on and the two agree on it, or it has ended
  cases hwithin : o.within i.next with
  | true =>
      have hjob : o.job ⟨i.next, i.update t, calls ++ i.calls⟩ = o.job ⟨i.next, j.update s, []⟩ := by
        refine (job_of_record _ [] rfl rfl).trans ((h.job hwithin).trans ?_)
        exact job_of_record _ _ rfl (congrArg o.within h.next.symm)
      rw [if_pos ((congrArg o.within h.next.symm).trans hwithin)]
      exact ⟨⟨h.next, hblocks⟩, hwithin, hjob, hground, hready⟩
  | false =>
      obtain ⟨hstart, hwritten⟩ := h.done hwithin
      rw [if_neg (ne_true_of_eq_false ((congrArg o.within h.next.symm).trans hwithin))]
      exact ⟨h.next, hblocks, hstart, hwritten⟩

/-- **A command or a click** that spares the operation leaves it where it is. -/
theorem inv_event {t : Tunnel} (hinv : life.Inv o b)
    (hjob : o.Ready b.state → o.job { b with state := t } = o.job b) (hground : t.ground = b.state.ground)
    (hlife : ∀ before alone, life ≠ .ended before alone) : life.Inv o { b with state := t } := by
  cases life with
  | waiting job =>
      obtain ⟨⟨hsame, hstart, hready⟩, hwithin⟩ := hinv
      have hnext := hjob hready
      exact ⟨⟨hnext.trans hsame, (start_of_job hnext).trans hstart, ready_of_job hnext hready⟩, hwithin⟩
  | working before alone =>
      obtain ⟨hholds, hwithin, hsame, hsameGround, hready⟩ := hinv
      have hnext := hjob hready
      exact ⟨hholds, hwithin, hnext.trans hsame, hground.trans hsameGround, ready_of_job hnext hready⟩
  | ended before alone => exact absurd rfl (hlife before alone)
  | past => trivial

/-- **The builder** elsewhere, at the beginning, or at work. -/
theorem inv_build (hinv : life.Inv o b) (h : o.Spared b .build) : (life.next env o .build b).Inv o (b.next env) := by
  -- a waiting job starts when its test comes, a working one does the same as alone
  cases life with
  | waiting job =>
      obtain ⟨⟨hsame, hstart, hready⟩, hwithin⟩ := hinv
      show (if o.atTest b.pc then _ else _ : Life).Inv o (b.next env)
      cases hat : o.atTest b.pc with
      | true =>
          have hbegin := begins env hat hstart hready (h hat)
          rw [if_pos rfl]
          refine inv_worked (i := builderIteration env b.state b.pc) (j := builderIteration env b.state b.pc)
            ⟨rfl, rfl, fun _ => rfl, fun hnot => ?_⟩ (List.append_nil _).symm rfl (ready_iteration _ _ hready)
          exact Bool.noConfusion (hbegin.symm.trans hnot)
      | false =>
          obtain ⟨hrecord, hnext⟩ := (builderStep env b.state b.pc).elsewhere hat hwithin
          have hjob : o.job (b.next env) = o.job b := job_of_record _ _ (hrecord b.state) (hnext.trans hwithin.symm)
          rw [if_neg Bool.false_ne_true]
          exact ⟨⟨hjob.trans hsame, (start_of_job hjob).trans hstart, ready_of_job hjob hready⟩, hnext⟩
  | working before alone =>
      obtain ⟨⟨hpc, hcalls⟩, hwithin, hjob, hground, hready⟩ := hinv
      have halike : o.job ⟨b.pc, b.state, []⟩ = o.job ⟨b.pc, alone.state, []⟩ :=
        (job_of_record [] _ rfl rfl).trans hjob
      have hlock := lockstep env hwithin halike hground
      show (Life.worked o before (alone.next env)).Inv o (b.next env)
      unfold Building.next
      rw [← hpc]
      refine inv_worked hlock hcalls ?_ (ready_iteration _ _ hready)
      exact ((builderStep _ _ _).kept _).2.trans (hground.trans ((builderStep _ _ _).kept _).2.symm)
  | ended before alone => trivial
  | past => trivial

/-- **A move** that spares the operation. -/
theorem inv_step {m : Move} (hinv : life.Inv o b) (h : o.Spared b m) :
    (life.next env o m b).Inv o (m.step env b) := by
  -- an iteration works on the job, the other moves have to leave it alone
  cases m with
  | build => exact inv_build hinv h
  | command text hfits =>
      cases life with
      | ended before alone => trivial
      | waiting job =>
          exact inv_event hinv (fun hready => job_command hready h) (ground_commanded text _)
            (fun _ _ => Life.noConfusion)
      | working before alone =>
          exact inv_event hinv (fun hready => job_command hready h) (ground_commanded text _)
            (fun _ _ => Life.noConfusion)
      | past => trivial
  | click payload hlen =>
      cases life with
      | ended before alone => trivial
      | waiting job =>
          exact inv_event hinv (fun _ => job_click hlen h) (ground_clicked hlen _) (fun _ _ => Life.noConfusion)
      | working before alone =>
          exact inv_event hinv (fun _ => job_click hlen h) (ground_clicked hlen _) (fun _ _ => Life.noConfusion)
      | past => trivial

/-- **A run** whose moves all spare the operation. -/
theorem lives_of_inv {ms : List Move} (hinv : life.Inv o b) (h : Undisturbed env o ms b) : Lives env o ms b life := by
  induction ms generalizing b life with
  | nil => exact hinv.holds
  | cons m ms ih => exact ⟨hinv.holds, ih (inv_step hinv h.1) h.2⟩

end Life

/-! ## The cuboid has one type -/

section OneType

variable (env : Env) (b : Building)

theorem type_commanded (text : Bytes) (t : Tunnel) (h : t.cuboid.type = 0) :
    (commanded env text t).cuboid.type = 0 := by
  by_cases hcancel : text = ascii "cancel"
  · rw [hcancel, commanded_cancel]
    split_ifs <;> exact h
  · by_cases hz : arg0 text = some (ascii "z")
    · rw [commanded_z env t hz]
      rfl
    · by_cases hcopy : arg0 text = some (ascii "copy")
      · rw [commanded_copy env t hcopy]
        cases arg1 text <;> exact h
      · by_cases hpaste : arg0 text = some (ascii "paste")
        · rw [commanded_paste env t hpaste]
          cases arg1 text <;> exact h
        · have hbuilds := kept_commanded (builds_commandFunc env hcancel hpaste hcopy hz) t
          exact (congrArg (fun k => k.1.type) hbuilds).trans h

theorem type_clicked {payload : Bytes} (hlen : payload.length = 8) (t : Tunnel) :
    (clicked env payload t).cuboid.type = t.cuboid.type := by
  cases hz : t.zPlace with
  | false => rw [clicked_of_not_zPlace env hlen hz]
  | true =>
      rw [clicked_of_zPlace env hlen hz, pointed_cuboid]
      unfold cuboidPointed
      split_ifs <;> rfl

/-- **Nobody** gives the cuboid another type. -/
theorem type_moved (ms : List Move) (h : b.state.cuboid.type = 0) : (moved env ms b).state.cuboid.type = 0 := by
  induction ms generalizing b with
  | nil => exact h
  | cons m ms ih =>
      apply ih
      cases m with
      | build => exact ((builderStep env b.state b.pc).kept b.state).1.2.1.trans h
      | command text hfits => exact type_commanded env text b.state h
      | click payload hlen => exact (type_clicked env hlen b.state).trans h

end OneType

/-! ## Every operation -/

/-- **Isolation.** An operation whose flag is up while the builder is not at work on it, and that is not to be halted,
    is executed as it was started, once, in every run whose moves all spare it. -/
theorem lives_undisturbed (env : Env) (o : Op) {t₀ : Tunnel} (htype : t₀.cuboid.type = 0) (pre post : List Move)
    (hstart : o.start (moved env pre ⟨.paste, t₀, []⟩).state = true)
    (hwithin : o.within (moved env pre ⟨.paste, t₀, []⟩).pc = false)
    (hhalted : o.halted (moved env pre ⟨.paste, t₀, []⟩).state = false)
    (h : Undisturbed env o post (moved env pre ⟨.paste, t₀, []⟩)) :
    Lives env o post (moved env pre ⟨.paste, t₀, []⟩) (.waiting (o.job (moved env pre ⟨.paste, t₀, []⟩))) := by
  have hready : o.Ready (moved env pre ⟨.paste, t₀, []⟩).state := ⟨hhalted, fun _ => type_moved env _ pre htype⟩
  exact lives_of_inv ⟨⟨rfl, hstart, hready⟩, hwithin⟩ h

/-- A cuboid of stone between two points of a level of 4 by 4 by 4 blocks. -/
def stoneRequested : List Move :=
  [.command (ascii "z stone") (by decide), .click [0, 0, 0, 0, 0, 0, 1, 1] rfl, .click [0, 0, 0, 0, 0, 1, 1, 1] rfl]

/-- Where the run begins. -/
def emptyLevel : Building := ⟨.paste, { lvlx := 4, lvly := 4, lvlz := 4 }, []⟩

/-- A copy that is requested while the builder is at work leaves the cuboid alone. -/
theorem lives_undisturbed_copy :
    let b := moved {} stoneRequested emptyLevel
    Lives {} .cuboid [.build, .build, .build, .build, .build, .build, .command (ascii "copy a") (by decide),
      .click [0, 1, 0, 1, 0, 1, 1, 1] rfl, .build, .build, .build, .build, .build] b
        (.waiting (Op.cuboid.job b)) := by
  have hbuild : ∀ b : Building, Op.cuboid.Spared b .build := fun _ _ => id
  have hcopy : ∀ b : Building, Op.cuboid.Spared b (.command (ascii "copy a") (by decide)) :=
    fun _ => ⟨by decide, fun h => absurd h.1 (by decide)⟩
  refine lives_undisturbed {} .cuboid rfl stoneRequested _ ?_ ?_ ?_ ?_
  · decide +kernel
  · rfl
  · decide +kernel
  · refine ⟨hbuild _, hbuild _, hbuild _, hbuild _, hbuild _, hbuild _, hcopy _, fun _ => ?_, hbuild _, hbuild _,
      hbuild _, hbuild _, hbuild _, trivial⟩
    decide +kernel

/-- Where a life is after a run. -/
def Life.after (env : Env) (o : Op) : List Move → Building → Life → Life
  | [], _, life => life
  | m :: ms, b, life => Life.after env o ms (m.step env b) (life.next env o m b)

theorem Lives.last {env : Env} {o : Op} {ms : List Move} {b : Building} {life : Life} (h : Lives env o ms b life) :
    (life.after env o ms b).Holds o (moved env ms b) := by
  induction ms generalizing b life with
  | nil => exact h
  | cons m ms ih => exact ih h.2

/-- The blocks that should have been placed. -/
def Life.blocks : Life → Option (List (Int16 × Int16 × Int16 × UInt8))
  | .working before alone => some (before ++ setBlocks alone.calls)
  | .ended before alone => some (before ++ setBlocks alone.calls)
  | _ => none

theorem Life.Holds.blocks {o : Op} {b : Building} {life : Life} (h : life.Holds o b)
    {blocks : List (Int16 × Int16 × Int16 × UInt8)} (hblocks : life.blocks = some blocks) :
    setBlocks b.calls = blocks := by
  cases life with
  | waiting job => exact absurd hblocks (Option.some_ne_none _).symm
  | working before alone => exact h.2.trans (Option.some.inj hblocks)
  | ended before alone => exact h.2.1.trans (Option.some.inj hblocks)
  | past => exact absurd hblocks (Option.some_ne_none _).symm

/-- A second `z` after the first block is placed turns the rest of the cuboid into dirt. -/
theorem not_lives_z :
    ¬ ∀ (env : Env) (o : Op) (t₀ : Tunnel) (pre post : List Move), t₀.cuboid.type = 0 →
      o.start (moved env pre ⟨.paste, t₀, []⟩).state = true → o.within (moved env pre ⟨.paste, t₀, []⟩).pc = false →
      o.halted (moved env pre ⟨.paste, t₀, []⟩).state = false →
      (∀ text h, Move.command text h ∈ post → text ≠ ascii "cancel") →
      Lives env o post (moved env pre ⟨.paste, t₀, []⟩) (.waiting (o.job (moved env pre ⟨.paste, t₀, []⟩))) := by
  intro h
  have hlives := h {} .cuboid { lvlx := 4, lvly := 4, lvlz := 4 } stoneRequested
    [.build, .build, .build, .build, .build, .build, .command (ascii "z dirt") (by decide), .build] rfl
    (by decide +kernel) rfl (by decide +kernel) (fun text hfits htext => ?_)
  · have hblocks := hlives.last.blocks (show Life.blocks _ = some [(0, 0, 0, 1), (0, 0, 1, 1)] by decide +kernel)
    exact absurd hblocks (by decide +kernel)
  · simp at htext
    rw [htext]
    decide

end LavaTunnel
