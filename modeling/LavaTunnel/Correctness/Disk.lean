import LavaTunnel.Correctness.Chunk
import LavaTunnel.Correctness.MapBounds
import LavaTunnel.Correctness.Session

/-!
# `LavaTunnel.Correctness.Disk` — the files of a run

A `copy` command names a chunk and waits for two clicks, the builder reads the corners when it sees `copy.start`, and
it reads the name when it writes. Commands and clicks may change the name and the corners while it copies. Whatever
they do, a file that the run changes has the name of a `copy` command of the run, and it is as long as its own header
says.
-/

namespace LavaTunnel

open Wire Wire.Prog

/-! ## The format -/

/-- A file with a whole header is as long as the header says. -/
def SaysItsSize (file : Bytes) : Prop :=
  6 ≤ file.length →
    (file.length : Int) = int32 (int32 (int32 ((shortAt file 0).toInt * (shortAt file 2).toInt) *
      (shortAt file 4).toInt) + 6)

/-- A buffer begins with the header that goes with a size. -/
def Headed (size : Int) (buf : Bytes) : Prop :=
  0 ≤ size ∧ ∃ c, size = copySize c ∧ ∃ blocks, buf = copyHeader c ++ blocks

theorem Headed.append {size : Int} {buf : Bytes} (h : Headed size buf) (more : Bytes) : Headed size (buf ++ more) := by
  obtain ⟨hsize, c, hc, blocks, rfl⟩ := h
  exact ⟨hsize, c, hc, blocks ++ more, List.append_assoc _ _ _⟩

/-- What is written of such a buffer. -/
theorem Headed.saysItsSize {size : Int} {buf : Bytes} (h : Headed size buf) (env : Env) :
    SaysItsSize (env.fill size.toNat buf) := by
  obtain ⟨hsize, c, hc, blocks, rfl⟩ := h
  intro hlong
  rw [length_fill] at hlong ⊢
  have hhead : ∀ i < 6, (env.fill size.toNat (copyHeader c ++ blocks))[i]? = (copyHeader c)[i]? := by
    intro i hi
    have hlen : i < (copyHeader c).length := hi
    unfold Env.fill
    rw [List.getElem?_take_of_lt (by omega), List.append_assoc, List.getElem?_append_left hlen]
  obtain ⟨hx, hy, hz⟩ := shortAt_header hhead
  rw [hx, hy, hz, Int.toNat_of_nonneg hsize]
  exact hc

/-! ## The builder -/

/-- The chunk that a copy is putting together. -/
def Pc.chunk : Pc → Option Bytes
  | .copyLoop copyBuf _ => some copyBuf
  | .copyWrite copyBuf => some copyBuf
  | _ => none

section Builder

variable {env : Env} {t : Tunnel} {pc : Pc}

/-- Where a copy in its loops goes on. -/
theorem chunk_copyIteration (t : Tunnel) (copyBuf : Bytes) (l : Loops) :
    (∃ more, (copyIteration t copyBuf l).next.chunk = some (copyBuf ++ more)) ∧
      (copyIteration t copyBuf l).update = id := by
  unfold copyIteration
  by_cases hin : l.inside (copyBounds t) = true
  · rw [if_pos hin]
    refine ⟨?_, rfl⟩
    by_cases hz : l.level = .z
    · exact ⟨_, congrArg some (if_pos hz)⟩
    · exact ⟨[], congrArg some ((if_neg hz).trans (List.append_nil _).symm)⟩
  · rw [if_neg hin]
    cases l.leave with
    | some l' => exact ⟨⟨[], congrArg some (List.append_nil _).symm⟩, rfl⟩
    | none => exact ⟨⟨[], congrArg some (List.append_nil _).symm⟩, rfl⟩

/-- A copy that sets out has a header and the size that goes with it. -/
theorem headed_copyStart {buf : Bytes} (hnext : (copyStart t).next.chunk = some buf) :
    Headed ((copyStart t).update t).copy.size buf := by
  unfold copyStart at hnext
  dsimp only at hnext
  split_ifs at hnext with hsize
  · exact absurd hnext (by simp [Pc.chunk])
  · refine ⟨not_lt.mp hsize, copySorted t.copy, rfl, [], ?_⟩
    rw [List.append_nil]
    exact (Option.some.inj hnext).symm

/-- What an iteration keeps of the chunk and its size. -/
structure Chunking (t t' : Tunnel) (pc next : Pc) : Prop where
  headed : ∀ buf, next.chunk = some buf → Headed t'.copy.size buf
  begun : next.chunk ≠ none → t.copy.start = true ∨ pc.chunk ≠ none
  files : ∀ name, t'.files name = t.files name ∨
    name = cstr t.copy.chunkName ∧ pc.chunk ≠ none ∧ ∃ file, t'.files name = some file ∧ SaysItsSize file

/-- Where no chunk is begun and nothing is written. -/
theorem chunking_of_none {t' : Tunnel} {next : Pc} (hnext : next.chunk = none) (hfiles : t'.files = t.files) :
    Chunking t t' pc next := by
  refine ⟨fun buf h => ?_, fun h => absurd hnext h, fun name => Or.inl (congrFun hfiles name)⟩
  exact absurd (hnext.symm.trans h) (by simp)

/-- **One iteration.** -/
theorem chunking_builder (h : ∀ buf, pc.chunk = some buf → Headed t.copy.size buf) :
    Chunking t ((builderIteration env t pc).update t) pc (builderIteration env t pc).next := by
  have hstep := builderStep env t pc
  cases hpc : pc with
  | copy =>
      by_cases hstart : t.copy.start = true
      · rw [iteration_copy_start env hstart]
        exact ⟨fun buf hnext => headed_copyStart hnext, fun _ => Or.inl hstart, fun name => Or.inl rfl⟩
      · rw [iteration_copy_idle env (Bool.eq_false_iff.mpr hstart)]
        exact chunking_of_none rfl rfl
  | copyLoop copyBuf l =>
      obtain ⟨⟨more, hnext⟩, hupdate⟩ := chunk_copyIteration t copyBuf l
      have hchunk : (builderIteration env t (.copyLoop copyBuf l)).next.chunk = some (copyBuf ++ more) := hnext
      have hsame : (builderIteration env t (.copyLoop copyBuf l)).update = id := hupdate
      rw [hsame]
      refine ⟨fun buf hbuf => ?_, fun _ => Or.inr (by simp [Pc.chunk]), fun name => Or.inl rfl⟩
      rw [← Option.some.inj (hchunk.symm.trans hbuf)]
      exact (h copyBuf (by rw [hpc]; rfl)).append more
  | copyWrite copyBuf =>
      have hheaded := h copyBuf (by rw [hpc]; rfl)
      refine ⟨fun buf hbuf => absurd hbuf (by simp [builderIteration, copyFinish, Pc.chunk]), fun hnext =>
        absurd (by rfl) hnext, fun name => ?_⟩
      by_cases hname : name = cstr t.copy.chunkName
      · refine Or.inr ⟨hname, by simp [Pc.chunk], env.fill t.copy.size.toNat copyBuf, ?_, hheaded.saysItsSize env⟩
        subst hname
        exact Function.update_self _ _ _
      · exact Or.inl (Function.update_of_ne hname _ _)
  | _ =>
      rw [hpc] at hstep
      generalize builderIteration env t _ = it at hstep ⊢
      obtain ⟨next, f, calls⟩ := it
      cases hstep <;> exact chunking_of_none rfl rfl

end Builder

/-! ## The other activities -/

/-- The name that a `copy` command gives. -/
def copyName (text : Bytes) : Option Bytes :=
  if arg0 text = some (ascii "copy") then (arg1 text).map fun name => cstr (chunkFile name) else none

/-- What a copy is waiting for, and under which name. -/
structure CopyStays (t t' : Tunnel) : Prop where
  files : t'.files = t.files
  size : t'.copy.size = t.copy.size
  name : t'.copy.chunkName = t.copy.chunkName
  asked : t'.copy.place = true ∨ t'.copy.start = true → t.copy.place = true ∨ t.copy.start = true

/-- Where the files and the whole copy stay. -/
theorem copyStays_of_eq {t t' : Tunnel} (h : t'.files = t.files ∧ t'.copy = t.copy) : CopyStays t t' := by
  obtain ⟨hfiles, hcopy⟩ := h
  refine ⟨hfiles, ?_, ?_, ?_⟩
  · rw [hcopy]
  · rw [hcopy]
  · rw [hcopy]
    exact fun hasked => hasked

/-- A click sets the corners of a copy, and starts the copy that waits. -/
theorem copyStays_pointed (p : Point) (blocktype : UInt8) (t : Tunnel) : CopyStays t (pointed p blocktype t) := by
  have hcuboid : (cuboidPointed p blocktype t).files = t.files ∧ (cuboidPointed p blocktype t).copy = t.copy := by
    unfold cuboidPointed
    split_ifs <;> exact ⟨rfl, rfl⟩
  have hpaste : ∀ t, (pastePointed p t).files = t.files ∧ (pastePointed p t).copy = t.copy := by
    intro t
    unfold pastePointed
    split_ifs <;> exact ⟨rfl, rfl⟩
  have hcopy : ∀ t, CopyStays t (copyPointed p t) := by
    intro t
    unfold copyPointed
    split_ifs with hplace
    · exact ⟨rfl, rfl, rfl, fun _ => Or.inl hplace⟩
    · exact ⟨rfl, rfl, rfl, fun _ => Or.inl hplace⟩
    · exact ⟨rfl, rfl, rfl, fun hasked => hasked⟩
    · exact ⟨rfl, rfl, rfl, fun hasked => hasked⟩
  have hbefore := hpaste (cuboidPointed p blocktype t)
  rw [hcuboid.1, hcuboid.2] at hbefore
  obtain ⟨hfiles, hsize, hname, hasked⟩ := hcopy (pastePointed p (cuboidPointed p blocktype t))
  rw [hbefore.2] at hsize hname hasked
  exact ⟨hfiles.trans hbefore.1, hsize, hname, hasked⟩

/-- A command is a `copy` with a name, or it asks for no copy. -/
theorem copyStays_commanded (env : Env) (text : Bytes) (t : Tunnel) :
    CopyStays t (commanded env text t) ∨ (commanded env text t).files = t.files ∧
      (commanded env text t).copy.size = t.copy.size ∧
        copyName text = some (cstr (commanded env text t).copy.chunkName) := by
  by_cases hplaces : Places text
  · rcases hplaces with rfl | hpaste | hcopy | hz
    · left
      rw [commanded_cancel]
      refine ⟨?_, ?_, ?_, fun hasked => Or.inr ?_⟩
      · split_ifs <;> rfl
      · split_ifs <;> rfl
      · split_ifs <;> rfl
      · have hstart : (if t.hide then { t with hide := false } else t).copy.start = t.copy.start := by
          split_ifs <;> rfl
        rcases hasked with hplace | hstarted
        · exact absurd hplace Bool.false_ne_true
        · exact hstart.symm.trans hstarted
    · left
      rw [commanded_paste env t hpaste]
      cases arg1 text with
      | none => exact copyStays_of_eq ⟨rfl, rfl⟩
      | some name => exact copyStays_of_eq ⟨rfl, rfl⟩
    · rw [commanded_copy env t hcopy]
      unfold copyName
      rw [if_pos hcopy]
      cases arg1 text with
      | none => exact Or.inl (copyStays_of_eq ⟨rfl, rfl⟩)
      | some name => exact Or.inr ⟨rfl, rfl, rfl⟩
    · left
      rw [commanded_z env t hz]
      exact copyStays_of_eq ⟨rfl, rfl⟩
  · left
    have htoggles : Toggling (fun _ => True) t (commanded env text t) :=
      (toggling_commandFunc env (M := fun _ => True) trivial (fun _ => trivial) hplaces).run toggling_refl
        Toggling.trans [] t
    have hfiles : (commanded env text t).besidesToggles.files = t.besidesToggles.files := by rw [htoggles.1]
    have hcopy : (commanded env text t).besidesToggles.copy = t.besidesToggles.copy := by rw [htoggles.1]
    exact copyStays_of_eq ⟨hfiles, hcopy⟩

/-- **Every activity** but the builder's. -/
theorem copyStays_did {env : Env} {t t' : Tunnel} {sent : List (Socket × Bytes)} {a : Activity}
    (h : Did env t t' sent a) (hbuild : a ≠ .build) :
    CopyStays t t' ∨ t'.files = t.files ∧ t'.copy.size = t.copy.size ∧
      ∃ text, a = .command text ∧ copyName text = some (cstr t'.copy.chunkName) := by
  cases a with
  | nothing =>
      rw [h.1]
      exact Or.inl (copyStays_of_eq ⟨rfl, rfl⟩)
  | command text =>
      rw [h.1]
      refine (copyStays_commanded env text t).imp_right ?_
      rintro ⟨hfiles, hsize, hname⟩
      exact ⟨hfiles, hsize, text, rfl, hname⟩
  | login =>
      obtain ⟨⟨unused, rfl⟩, -⟩ := h
      exact Or.inl (copyStays_of_eq ⟨rfl, rfl⟩)
  | server =>
      have hfiles : t'.besidesServer.files = t.besidesServer.files := by rw [h.1.1]
      have hcopy : t'.besidesServer.copy = t.besidesServer.copy := by rw [h.1.1]
      exact Or.inl (copyStays_of_eq ⟨hfiles, hcopy⟩)
  | click =>
      obtain ⟨⟨p, blocktype, rfl⟩, -⟩ := h
      left
      split_ifs
      · exact copyStays_pointed p blocktype t
      · exact copyStays_of_eq ⟨rfl, rfl⟩
  | client =>
      have hfiles : t'.besidesClient.files = t.besidesClient.files := by rw [h.1.besides]
      have hcopy : t'.besidesClient.copy = t.besidesClient.copy := by rw [h.1.besides]
      exact Or.inl (copyStays_of_eq ⟨hfiles, hcopy⟩)
  | build => exact absurd rfl hbuild

/-! ## A run -/

/-- The names that the `copy` commands of a run give. -/
def copyNames (sched : List (ThreadId × Env × Bytes)) : List Bytes :=
  sched.flatMap fun e => ((commandIn e.2.1 e.1 e.2.2).bind copyName).toList

/-- A file that has changed since `files₀` has one of the names, and says how long it is; and where a copy is waited
    for, due or going on, it has one of them. -/
structure Copying (files₀ : Bytes → Option Bytes) (names : List Bytes) (c : Turns ThreadId Tunnel Socket Locals) :
    Prop where
  owned : Owned c
  asked : c.state.copy.place = true ∨ c.state.copy.start = true → cstr c.state.copy.chunkName ∈ names
  building : ∀ pc, c.locals .builder = .builder pc → pc.chunk ≠ none → cstr c.state.copy.chunkName ∈ names
  headed : c.ended = false → ∀ pc, c.locals .builder = .builder pc → ∀ buf, pc.chunk = some buf →
    Headed c.state.copy.size buf
  files : ∀ name, c.state.files name = files₀ name ∨
    name ∈ names ∧ ∃ file, c.state.files name = some file ∧ SaysItsSize file

section Turn

variable {env : Env} {files₀ : Bytes → Option Bytes} {names : List Bytes} {c c' : Turns ThreadId Tunnel Socket Locals}

/-- More names. -/
theorem Copying.append (h : Copying files₀ names c) (more : List Bytes) : Copying files₀ (names ++ more) c where
  owned := h.owned
  asked hasked := List.mem_append_left _ (h.asked hasked)
  building pc hpc hchunk := List.mem_append_left _ (h.building pc hpc hchunk)
  headed := h.headed
  files name := (h.files name).imp_right fun hchanged => ⟨List.mem_append_left _ hchanged.1, hchanged.2⟩

/-- A turn of another thread that leaves the copy alone. -/
theorem Copying.stays (h : Copying files₀ names c) (hgoes : c.ended = false) (howned : Owned c')
    (hbuilder : c'.locals .builder = c.locals .builder) (hstays : CopyStays c.state c'.state) :
    Copying files₀ names c' := by
  refine ⟨howned, fun hasked => ?_, fun pc hpc hchunk => ?_, fun _ pc hpc => ?_, fun name => ?_⟩
  · rw [hstays.name]
    exact h.asked (hstays.asked hasked)
  · rw [hstays.name]
    exact h.building pc (hbuilder.symm.trans hpc) hchunk
  · rw [hstays.size]
    exact h.headed hgoes pc (hbuilder.symm.trans hpc)
  · rw [hstays.files]
    exact h.files name

/-- A turn of another thread with a `copy` command. -/
theorem Copying.named (h : Copying files₀ names c) (hgoes : c.ended = false) (howned : Owned c')
    (hbuilder : c'.locals .builder = c.locals .builder) (hfiles : c'.state.files = c.state.files)
    (hsize : c'.state.copy.size = c.state.copy.size) (hname : cstr c'.state.copy.chunkName ∈ names) :
    Copying files₀ names c' := by
  refine ⟨howned, fun _ => hname, fun _ _ _ => hname, fun _ pc hpc => ?_, fun name => ?_⟩
  · rw [hsize]
    exact h.headed hgoes pc (hbuilder.symm.trans hpc)
  · rw [hfiles]
    exact h.files name

/-- A turn of the builder, which goes on, or has crashed where it stands. -/
theorem Copying.build (h : Copying files₀ names c) {pc next : Pc} (hpc : c.locals .builder = .builder pc)
    (howned : Owned c') (hbuilds : Builds c.state c'.state) (hchunk : Chunking c.state c'.state pc next)
    (hbuilder : c'.locals .builder = .builder next ∨ c'.locals .builder = .builder pc ∧ c'.ended = true) :
    Copying files₀ names c' := by
  have hplace : c'.state.besidesBuilder.copy.place = c.state.besidesBuilder.copy.place := by rw [hbuilds.besides]
  have hsame : c'.state.copy.place = c.state.copy.place := hplace
  refine ⟨howned, fun hasked => ?_, fun pc' hpc' hnext => ?_, fun hgoes pc' hpc' => ?_, fun name => ?_⟩
  · rw [hbuilds.chunkName]
    rw [hsame] at hasked
    exact h.asked (hasked.imp_right hbuilds.copy)
  · rw [hbuilds.chunkName]
    rcases hbuilder with hl | ⟨hl, -⟩
    · rw [← Locals.builder.inj (hl.symm.trans hpc')] at hnext
      rcases hchunk.begun hnext with hstart | hgoing
      · exact h.asked (Or.inr hstart)
      · exact h.building pc hpc hgoing
    · rw [← Locals.builder.inj (hl.symm.trans hpc')] at hnext
      exact h.building pc hpc hnext
  · rcases hbuilder with hl | ⟨-, hended⟩
    · rw [← Locals.builder.inj (hl.symm.trans hpc')]
      exact hchunk.headed
    · exact absurd (hended.symm.trans hgoes) (by decide)
  · rcases hchunk.files name with hkept | ⟨hname, hgoing, hfile⟩
    · rw [hkept]
      exact h.files name
    · refine Or.inr ⟨?_, hfile⟩
      rw [hname]
      exact h.building pc hpc hgoing

/-- **One turn.** -/
theorem copying_turn (h : Copying files₀ names c) (i : ThreadId) (input : Bytes) :
    Copying files₀ (names ++ ((commandIn env i input).bind copyName).toList) ((tunnel env).turn c i input) := by
  by_cases hturn : c.ended = false ∧ (tunnel env).started i c.state = true
  swap
  · rw [turn_of_not hturn]
    exact h.append _
  have howned : Owned ((tunnel env).turn c i input) := owned_turn i input h.owned
  obtain ⟨hstate, -⟩ : ((tunnel env).turn c i input).state = _ ∧ _ := turn_does input hturn
  have hdid : Did env c.state ((tunnel env).turn c i input).state
      (((tunnel env).body i (c.locals i)).sent input c.state) (activity env input i (c.locals i)) :=
    hstate ▸ did_round i (c.locals i)
  by_cases hi : i = .builder
  · subst hi
    obtain ⟨pc, hpc⟩ := h.owned.builder
    have hbuilds : Builds c.state ((tunnel env).turn c .builder input).state := by
      rw [hpc] at hdid
      exact hdid.1
    have hbody : (tunnel env).body .builder (c.locals .builder) =
        (do let pc' ← builder env pc; pure (.builder pc')) := by
      rw [hpc]
      rfl
    obtain ⟨hrun, hresult⟩ := run_builder env c.state input pc
    have hchunk : Chunking c.state ((builderIteration env c.state pc).update c.state) pc
        (builderIteration env c.state pc).next := chunking_builder (h.headed hturn.1 pc hpc)
    have hstate' : ((tunnel env).turn c .builder input).state = ((builder env pc).run input c.state).state := by
      rw [hbody, run_bind_pure] at hstate
      exact hstate
    rw [← hrun, ← hstate'] at hchunk
    refine (h.build hpc howned hbuilds hchunk ?_).append _
    have hself : ((tunnel env).turn c .builder input).locals .builder = _ := turn_locals_self input hturn
    rw [hbody, run_bind_pure, hpc] at hself
    rcases hresult with hcrash | hgoes
    · rw [hcrash] at hself
      refine Or.inr ⟨hself, ?_⟩
      rw [turn_ended input hturn, hbody, run_bind_pure]
      show (((builder env pc).run input c.state).result.map Locals.builder).isNone = true
      rw [hcrash]
      rfl
    · rw [hgoes] at hself
      exact Or.inl hself
  · have hbuilder : ((tunnel env).turn c i input).locals .builder = c.locals .builder :=
      turn_locals_ne (Ne.symm hi) input
    have hbuild : activity env input i (c.locals i) ≠ .build := fun hbuild => hi (activity_build hbuild)
    rcases copyStays_did hdid hbuild with hstays | ⟨hfiles, hsize, text, hactivity, hname⟩
    · exact (h.stays hturn.1 howned hbuilder hstays).append _
    · refine (h.append _).named hturn.1 howned hbuilder hfiles hsize (List.mem_append_right _ ?_)
      rw [commandIn_of_activity hactivity]
      exact Option.mem_toList.mpr hname

end Turn

/-- **The files of a run**, by the names that its `copy` commands give. -/
theorem copying_runs {t : Tunnel} (hplace : t.copy.place = false) (hstart : t.copy.start = false)
    (sched : List (ThreadId × Env × Bytes)) :
    Copying t.files (copyNames sched) (turnsWith tunnel (beginning t) sched) := by
  have hbeginning : Copying t.files [] (beginning t) := by
    refine ⟨owned_beginning t, fun hasked => ?_, fun pc hpc hchunk => ?_, fun _ pc hpc buf hbuf => ?_,
      fun _ => Or.inl rfl⟩
    · rcases hasked with hplaced | hstarted
      · exact absurd (hplace.symm.trans hplaced) Bool.false_ne_true
      · exact absurd (hstart.symm.trans hstarted) Bool.false_ne_true
    · rw [← Locals.builder.inj hpc] at hchunk
      exact absurd rfl hchunk
    · rw [← Locals.builder.inj hpc] at hbuf
      exact absurd hbuf (by simp [Pc.chunk])
  have hstep : ∀ names (c : Turns ThreadId Tunnel Socket Locals) i env input, Copying t.files names c →
      Copying t.files (names ++ ((commandIn env i input).bind copyName).toList) ((tunnel env).turn c i input) :=
    fun names c i env input hc => copying_turn hc i input
  exact turnsWith_collect (g := fun e => ((commandIn e.2.1 e.1 e.2.2).bind copyName).toList) hstep hbeginning sched

/-- The names in the commands of a run fit their buffers. -/
def NamesFit (sched : List (ThreadId × Env × Bytes)) : Prop :=
  ∀ e ∈ sched, ∀ text ∈ commandIn e.2.1 e.1 e.2.2, NameFits text

theorem length_of_mem_copyNames {sched : List (ThreadId × Env × Bytes)} (hfits : NamesFit sched) {name : Bytes}
    (h : name ∈ copyNames sched) : name.length < 64 := by
  obtain ⟨e, he, hname⟩ := List.mem_flatMap.mp h
  obtain ⟨text, htext, hcopy⟩ := Option.bind_eq_some_iff.mp (Option.mem_toList.mp hname)
  unfold copyName at hcopy
  split at hcopy
  · next harg =>
      obtain ⟨arg, harg1, rfl⟩ := Option.map_eq_some_iff.mp hcopy
      have hfit : (chunkFile arg).length < 64 := hfits e he text htext (Or.inl harg) arg harg1
      exact lt_of_le_of_lt (List.takeWhile_prefix _).length_le hfit
  · exact absurd hcopy.symm (Option.some_ne_none name)

/-- **The files of a run.** In every run of the four threads, whatever arrives and whatever memory the turns find, as
    long as the names in its commands fit their buffers: a file that is not as it was has the name that a `copy` command
    of the run gives, and if its header is whole it is as long as the header says. -/
theorem files_runs (t : Tunnel) (hplace : t.copy.place = false) (hstart : t.copy.start = false)
    (sched : List (ThreadId × Env × Bytes)) (hfits : NamesFit sched) (name : Bytes) :
    (turnsWith tunnel (beginning t) sched).state.files name = t.files name ∨
      (name ∈ copyNames sched ∧ name.length < 64) ∧ ∃ file,
        (turnsWith tunnel (beginning t) sched).state.files name = some file ∧ SaysItsSize file := by
  refine ((copying_runs hplace hstart sched).files name).imp_right ?_
  rintro ⟨hname, hfile⟩
  exact ⟨⟨hname, length_of_mem_copyNames hfits hname⟩, hfile⟩

/-- A block is copied, and the builder runs. -/
def aCopy : List (ThreadId × Env × Bytes) :=
  (.main, {}, ascii "'copy hut") :: (.tunnelServer, { junk := fun _ _ => 7 }, [0x05, 0, 1, 0, 2, 0, 3, 1, 1]) ::
    (.tunnelServer, {}, [0x05, 0, 1, 0, 2, 0, 3, 1, 1]) :: List.replicate 12 (.builder, {}, [])

/-- The chunk of it. -/
theorem files_runs_copied :
    (turnsWith tunnel (beginning { loggedIn := true }) aCopy).state.files (cstr (chunkFile (ascii "hut"))) = none ∨
      (cstr (chunkFile (ascii "hut")) ∈ copyNames aCopy ∧ (cstr (chunkFile (ascii "hut"))).length < 64) ∧ ∃ file,
        (turnsWith tunnel (beginning { loggedIn := true }) aCopy).state.files (cstr (chunkFile (ascii "hut"))) =
          some file ∧ SaysItsSize file := by
  have hfits : NamesFit aCopy := by
    unfold NamesFit
    decide +kernel
  exact files_runs { loggedIn := true } rfl rfl aCopy hfits _

end LavaTunnel
