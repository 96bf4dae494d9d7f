import Mathlib.Data.Nat.Digits.Defs
import LavaTunnel.Correctness.Refusals
import LavaTunnel.Correctness.Info

/-!
# `LavaTunnel.Correctness.Formats` — what `sprintf` writes, and where

Every `sprintf` of `commandFunc` and of a paste click has a target of 64 bytes. The arguments are words of the
command, names and numbers, and none of them is cut before it is formatted. `tinfo` is one byte too short for any
arguments, and `direct` has 70 bytes.
-/

namespace LavaTunnel

open Wire Wire.Prog

/-- One `sprintf`: the size of its target, and the text. -/
structure Formatted where
  size : Nat
  text : Bytes

/-- The text and its terminator are inside the target. -/
def Formatted.Fits (f : Formatted) : Prop := f.text.length + 1 ≤ f.size

/-- All of them are. -/
def AllFit (fs : List Formatted) : Prop := ∀ f ∈ fs, f.Fits

/-! ## The formats of `commandFunc` -/

def plotMsg (name block : Bytes) : Bytes :=
  lava "plotmotion: Plotmotioning '" ++ name ++ ascii "' with '" ++ block ++ ascii "'"

def paintMsg (block : Bytes) : Bytes := lava "Painting with '" ++ block ++ ascii "'."

def speedMsg (zspeed : Int) : Bytes := lava "zspeed: speed set to " ++ decimal zspeed ++ ascii "ms."

def findMsg (p : Player) : Bytes :=
  lava "" ++ cstr p.username ++ ascii " found at " ++ decimal (p.x.toNat / 32 : Nat) ++ ascii ", " ++
    decimal (p.y.toNat / 32 : Nat) ++ ascii ", " ++ decimal (p.z.toNat / 32 : Nat) ++ ascii " (" ++
    decimal p.yaw.toNat ++ ascii ", " ++ decimal p.pitch.toNat ++ ascii ")"

def ignoreMsg (p : Player) : Bytes :=
  if p.ignore then lava "Stopped ignoring " ++ cstr p.username ++ ascii "."
  else lava "Ignoring " ++ cstr p.username ++ ascii "."

/-- The speed after a `zspeed` command. -/
def zspeedAfter (speed : Bytes) (t : Tunnel) : Int :=
  if speed = ascii "none" then t.cuboid.zspeed else atoi speed

/-- The formats of the commands with arguments, each under its name. -/
def argFormats (env : Env) (command : Bytes) (t : Tunnel) : List (Bytes × List Formatted) :=
  let found (is : List Int) (name : Bytes) := findPlayer t is (sameName env name)
  [(ascii "plotmotion", (arg1 command).toList.flatMap fun name => (arg2 command).toList.flatMap fun block =>
      if getBid block ≠ 255 then (found ids name).toList.map fun _ => ⟨64, plotMsg name block⟩ else []),
    (ascii "paint", (arg1 command).toList.flatMap fun block =>
      if getBid block ≠ 255 then [⟨64, paintMsg block⟩] else []),
    (ascii "paste", (arg1 command).toList.map fun name => ⟨64, chunkFile name⟩),
    (ascii "copy", (arg1 command).toList.map fun name => ⟨64, chunkFile name⟩),
    (ascii "zspeed", (arg1 command).toList.map fun speed => ⟨64, speedMsg (zspeedAfter speed t)⟩),
    (ascii "find", (arg1 command).toList.flatMap fun name =>
      (found (-1 :: ids) name).toList.map fun i => ⟨64, findMsg (t.player i)⟩),
    (ascii "ignore", (arg1 command).toList.flatMap fun name =>
      (found ids name).toList.map fun i => ⟨64, ignoreMsg (t.player i)⟩)]

/-- The `sprintf`s that `commandFunc` runs. -/
def commandFormats (env : Env) (command : Bytes) (t : Tunnel) : List Formatted :=
  if command = ascii "roll" then [⟨64, rollText ((env.rand t.rands % (99999 - 10000) : Nat) + 1)⟩]
  else (argFormats env command t).flatMap fun e => if arg0 command = some e.1 then e.2 else []

/-- The `sprintf` of a click, if a paste waits for its point. -/
def clickFormats (t : Tunnel) : List Formatted :=
  if t.zPlace = true ∧ t.paste.place = true then [⟨64, lava "paste: pasting " ++ cstr t.paste.chunkName⟩] else []

/-- `tinfo`. -/
def tinfoFormat (l : Login) : Formatted :=
  ⟨strlen l.username + strlen l.password + strlen l.hash + 2, infoText l⟩

/-- `direct`. -/
def directFormat (l : Login) : Formatted := ⟨70, directText l⟩

/-! ## When they fit -/

/-- The length of the numbers that `find` writes. -/
def placeLength (p : Player) : Nat :=
  (decimal (p.x.toNat / 32 : Nat)).length + (decimal (p.y.toNat / 32 : Nat)).length +
    (decimal (p.z.toNat / 32 : Nat)).length + (decimal p.yaw.toNat).length + (decimal p.pitch.toNat).length

/-- The arguments of a command, and the player it names, are short enough for its formats. -/
def ShortArguments (env : Env) (command : Bytes) (t : Tunnel) : Prop :=
  let found (is : List Int) (name : Bytes) := findPlayer t is (sameName env name)
  (arg0 command = some (ascii "plotmotion") → ∀ name ∈ arg1 command, ∀ block ∈ arg2 command,
    (found ids name).isSome → name.length + block.length ≤ 6) ∧
  (arg0 command = some (ascii "paint") → ∀ block ∈ arg1 command, block.length ≤ 25) ∧
  (arg0 command = some (ascii "paste") → ∀ name ∈ arg1 command, name.length ≤ 50) ∧
  (arg0 command = some (ascii "copy") → ∀ name ∈ arg1 command, name.length ≤ 50) ∧
  (arg0 command = some (ascii "find") → ∀ name ∈ arg1 command, ∀ i ∈ found (-1 :: ids) name,
    strlen (t.player i).username + placeLength (t.player i) ≤ 23) ∧
  (arg0 command = some (ascii "ignore") → ∀ name ∈ arg1 command, ∀ i ∈ found ids name,
    strlen (t.player i).username ≤ if (t.player i).ignore then 24 else 32)

/-! ## Lengths -/

theorem length_ascii (s : String) : (ascii s).length = s.toList.length := List.length_map _

@[simp] theorem length_lava (s : String) : (lava s).length = 21 + s.toList.length := by
  unfold lava
  rw [List.length_append, length_ascii, length_ascii]
  rfl

theorem length_plotMsg (name block : Bytes) : (plotMsg name block).length = 57 + (name.length + block.length) := by
  unfold plotMsg
  simp only [List.length_append, length_lava, length_ascii]
  show 21 + 27 + name.length + 8 + block.length + 1 = _
  omega

theorem length_paintMsg (block : Bytes) : (paintMsg block).length = 38 + block.length := by
  unfold paintMsg
  simp only [List.length_append, length_lava, length_ascii]
  show 21 + 15 + block.length + 2 = _
  omega

theorem length_chunkFile (name : Bytes) : (chunkFile name).length = 13 + name.length := by
  unfold chunkFile
  simp only [List.length_append, length_ascii]
  show 7 + name.length + 6 = _
  omega

theorem length_speedMsg (zspeed : Int) : (speedMsg zspeed).length = 45 + (decimal zspeed).length := by
  unfold speedMsg
  simp only [List.length_append, length_lava, length_ascii]
  show 21 + 21 + (decimal zspeed).length + 3 = _
  omega

theorem length_findMsg (p : Player) : (findMsg p).length = 40 + (strlen p.username + placeLength p) := by
  unfold findMsg placeLength strlen
  simp only [List.length_append, length_lava, length_ascii]
  show 21 + 0 + _ + 10 + _ + 2 + _ + 2 + _ + 2 + _ + 2 + _ + 1 = _
  omega

theorem length_ignoreMsg (p : Player) :
    (ignoreMsg p).length = (if p.ignore then 39 else 31) + strlen p.username := by
  unfold ignoreMsg strlen
  split
  · simp only [List.length_append, length_lava, length_ascii]
    show 21 + 17 + (cstr p.username).length + 1 = _
    omega
  · simp only [List.length_append, length_lava, length_ascii]
    show 21 + 9 + (cstr p.username).length + 1 = _
    omega

theorem length_rollText (n : Int) : (rollText n).length = 12 + (decimal n).length := by
  unfold rollText
  simp only [List.length_append, length_ascii]
  show 11 + (decimal n).length + 1 = _
  omega

/-- The digits of a number below a power of ten. -/
theorem length_decimal_le {n e : Nat} (he : 0 < e) (h : n < 10 ^ e) : (decimal n).length ≤ e := by
  rw [decimal_eq, List.length_map]
  exact Nat.toDigits_length 10 n e he h

/-- A negative number has a sign in front of its digits. -/
theorem length_decimal_neg (k : Nat) : (decimal (Int.negSucc k)).length = (decimal (k + 1 : Nat)).length + 1 := by
  show (ascii ("-" ++ toString (k + 1))).length = (ascii (toString (k + 1))).length + 1
  rw [length_ascii, length_ascii, String.toList_append, List.length_append, Nat.add_comm]
  rfl

/-- An `int` has at most ten digits and a sign. -/
theorem length_decimal_int {n : Int} (hlow : -2 ^ 31 ≤ n) (hhigh : n < 2 ^ 31) : (decimal n).length ≤ 11 := by
  cases n with
  | ofNat k =>
      have hk : k < 10 ^ 10 := by
        have hk' : (k : Int) < 2 ^ 31 := hhigh
        omega
      exact (length_decimal_le (by decide) hk).trans (by decide)
  | negSucc k =>
      have hk : k + 1 < 10 ^ 10 := by omega
      rw [length_decimal_neg]
      exact Nat.succ_le_succ (length_decimal_le (by decide) hk)

theorem atoi_range (s : Bytes) : -2 ^ 31 ≤ atoi s ∧ atoi s < 2 ^ 31 := by
  have hrange (n : Int) : -2 ^ 31 ≤ int32 n ∧ int32 n < 2 ^ 31 := by
    unfold int32
    have hle := Int.le_bmod (x := n) (m := 2 ^ 32) (by decide)
    have hlt := Int.bmod_lt (x := n) (m := 2 ^ 32) (by decide)
    omega
  fun_cases atoi s
  · exact hrange _
  · exact hrange _
  · exact hrange _

/-! ## One command each -/

section Commands

variable {env : Env} {command : Bytes} {t : Tunnel}

theorem allFit_nil : AllFit [] := fun _ hf => absurd hf List.not_mem_nil

theorem allFit_singleton {f : Formatted} : AllFit [f] ↔ f.Fits := List.forall_mem_singleton

theorem fits_iff {size : Nat} {text : Bytes} : Formatted.Fits ⟨size, text⟩ ↔ text.length + 1 ≤ size := Iff.rfl

theorem allFit_map {α : Type} {o : Option α} {f : α → Formatted} :
    AllFit (o.toList.map f) ↔ ∀ a ∈ o, (f a).Fits := by
  unfold AllFit
  simp only [List.forall_mem_map, Option.mem_toList, Option.mem_def]

theorem allFit_flatMap {α : Type} {o : Option α} {f : α → List Formatted} :
    AllFit (o.toList.flatMap f) ↔ ∀ a ∈ o, AllFit (f a) := by
  unfold AllFit
  simp only [List.forall_mem_flatMap, Option.mem_toList, Option.mem_def]

theorem plotmotion_fits_iff (name block : Bytes) (found : Option Int) :
    AllFit (if getBid block ≠ 255 then found.toList.map fun _ => ⟨64, plotMsg name block⟩ else []) ↔
      (found.isSome → name.length + block.length ≤ 6) := by
  rw [if_pos (getBid_ne block), allFit_map]
  simp only [fits_iff, length_plotMsg]
  cases found with
  | none => exact iff_of_true (fun _ h => absurd h (by simp)) (fun h => absurd h (by simp))
  | some i =>
      simp only [Option.mem_def, Option.some.injEq, forall_eq', Option.isSome_some, forall_const]
      omega

theorem paint_fits_iff (block : Bytes) :
    AllFit (if getBid block ≠ 255 then [⟨64, paintMsg block⟩] else []) ↔ block.length ≤ 25 := by
  rw [if_pos (getBid_ne block), allFit_singleton, fits_iff, length_paintMsg]
  omega

theorem chunk_fits_iff (name : Bytes) : Formatted.Fits ⟨64, chunkFile name⟩ ↔ name.length ≤ 50 := by
  rw [fits_iff, length_chunkFile]
  omega

/-- The speed is always short enough. -/
theorem speed_fits (hlow : -2 ^ 31 ≤ t.cuboid.zspeed) (hhigh : t.cuboid.zspeed < 2 ^ 31) (speed : Bytes) :
    Formatted.Fits ⟨64, speedMsg (zspeedAfter speed t)⟩ := by
  have hint : -2 ^ 31 ≤ zspeedAfter speed t ∧ zspeedAfter speed t < 2 ^ 31 := by
    unfold zspeedAfter
    split
    · exact ⟨hlow, hhigh⟩
    · exact atoi_range speed
  have hdigits := length_decimal_int hint.1 hint.2
  rw [fits_iff, length_speedMsg]
  omega

theorem find_fits_iff (p : Player) :
    Formatted.Fits ⟨64, findMsg p⟩ ↔ strlen p.username + placeLength p ≤ 23 := by
  rw [fits_iff, length_findMsg]
  omega

theorem ignore_fits_iff (p : Player) :
    Formatted.Fits ⟨64, ignoreMsg p⟩ ↔ strlen p.username ≤ if p.ignore then 24 else 32 := by
  rw [fits_iff, length_ignoreMsg]
  split
  · omega
  · omega

/-- A roll has at most five digits. -/
theorem roll_fits (n : Nat) : Formatted.Fits ⟨64, rollText ((n % (99999 - 10000) : Nat) + 1)⟩ := by
  have hlt : n % (99999 - 10000) + 1 < 10 ^ 5 := by omega
  have hdigits : (decimal ((n % (99999 - 10000) : Nat) + 1)).length ≤ 5 := length_decimal_le (by decide) hlt
  rw [fits_iff, length_rollText]
  omega

/-- The formats of the command at hand are what counts. -/
theorem allFit_named {es : List (Bytes × List Formatted)} :
    AllFit (es.flatMap fun e => if arg0 command = some e.1 then e.2 else []) ↔
      ∀ e ∈ es, arg0 command = some e.1 → AllFit e.2 := by
  unfold AllFit
  rw [List.forall_mem_flatMap]
  refine forall₂_congr fun e _ => ?_
  by_cases hname : arg0 command = some e.1
  · rw [if_pos hname]
    exact ⟨fun h _ => h, fun h => h hname⟩
  · rw [if_neg hname]
    exact iff_of_true allFit_nil (fun h => absurd h hname)

/-- **`commandFunc` stays inside its buffers** just if the arguments are short. -/
theorem command_fits_iff (hlow : -2 ^ 31 ≤ t.cuboid.zspeed) (hhigh : t.cuboid.zspeed < 2 ^ 31) :
    AllFit (commandFormats env command t) ↔ ShortArguments env command t := by
  unfold commandFormats
  split
  next hroll =>
    -- the first word of `roll` is none of the others
    subst hroll
    refine iff_of_true (allFit_singleton.mpr (roll_fits _)) ⟨?_, ?_, ?_, ?_, ?_, ?_⟩ <;>
      exact fun h => absurd h (by decide)
  next =>
    have hspeed : AllFit ((arg1 command).toList.map fun speed => ⟨64, speedMsg (zspeedAfter speed t)⟩) :=
      allFit_map.mpr fun speed _ => speed_fits hlow hhigh speed
    rw [allFit_named]
    unfold argFormats ShortArguments
    simp only [List.forall_mem_cons, hspeed, implies_true, true_and, List.not_mem_nil, false_implies, and_true,
      allFit_map, allFit_flatMap, plotmotion_fits_iff, paint_fits_iff, chunk_fits_iff, find_fits_iff, ignore_fits_iff]

/-! ## The formats are the ones of the model -/

/-- The run sends the text in a message, or leaves it as the name of a chunk. -/
def Written {α : Type} (text : Bytes) (o : Outcome Tunnel Socket Bytes α) : Prop :=
  (∃ s, (s, toMCString text) ∈ o.out) ∨ o.state.paste.chunkName = text ∨ o.state.copy.chunkName = text

theorem written_told {α : Type} {text : Bytes} {o : Outcome Tunnel Socket Bytes α} (h : told text ⊆ o.out) :
    Written text o :=
  .inl ⟨serverSock, h (by simp [told, Wire.written])⟩

section Written

variable {name block : Bytes} {i : Int}

theorem written_cmdPlotmotion (hi : findPlayer t ids (sameName env name) = some i) :
    Written (plotMsg name block) ((cmdPlotmotion env (some name) (some block)).run ([] : Bytes) t) := by
  have hfind : findPlayer { t with plotBlock := getBid block } ids (sameName env name) = some i := hi
  apply written_told
  simp [cmdPlotmotion, getBid_ne, hfind, setMode, teleportTo, tunnelTeleport, tunnelMsg, told, plotMsg]

theorem written_cmdPaint : Written (paintMsg block) ((cmdPaint (some block)).run ([] : Bytes) t) := by
  apply written_told
  simp [cmdPaint, getBid_ne, tunnelMsg, told, paintMsg]

theorem written_cmdZspeed (speed : Bytes) :
    Written (speedMsg (zspeedAfter speed t)) ((cmdZspeed (some speed)).run ([] : Bytes) t) := by
  apply written_told
  unfold zspeedAfter cmdZspeed setZspeed
  by_cases hnone : speed = ascii "none"
  · simp [hnone, tunnelMsg, told, speedMsg]
  · simp [hnone, tunnelMsg, told, speedMsg]

theorem written_cmdFind (hi : findPlayer t (-1 :: ids) (sameName env name) = some i) :
    Written (findMsg (t.player i)) ((cmdFind env (some name)).run ([] : Bytes) t) := by
  apply written_told
  simp [cmdFind, hi, tunnelMsg, told, findMsg]

theorem written_cmdIgnore (hi : findPlayer t ids (sameName env name) = some i) :
    Written (ignoreMsg (t.player i)) ((cmdIgnore env (some name)).run ([] : Bytes) t) := by
  apply written_told
  unfold cmdIgnore ignoreMsg
  by_cases hign : (t.player i).ignore = true
  · simp [hi, hign, tunnelMsg, told]
  · simp [hi, hign, tunnelMsg, told]

theorem written_cmdRoll : Written (rollText ((env.rand t.rands % (99999 - 10000) : Nat) + 1))
    ((commandFunc env (ascii "roll")).run ([] : Bytes) t) := by
  rw [commandFunc_roll]
  exact .inl ⟨tunnelSock, by simp [cmdRoll, rand, sendMessage, Wire.written, rollText]⟩

end Written

theorem written_of_mem {name text : Bytes} {c : Code Unit} (hmem : (name, c) ∈ argCommands env command)
    (h : arg0 command = some name) (hw : Written text (c.run ([] : Bytes) t)) :
    Written text ((commandFunc env command).run ([] : Bytes) t) := by
  obtain ⟨hout, hstate⟩ := run_of_mem (t := t) hmem h
  unfold Written
  rw [show ((commandFunc env command).run ([] : Bytes) t).out = _ from hout,
    show ((commandFunc env command).run ([] : Bytes) t).state = _ from hstate]
  exact hw

/-- **A format that `commandFunc` runs** is sent, or is the name of a chunk. -/
theorem written_commandFunc {f : Formatted} (hf : f ∈ commandFormats env command t) :
    Written f.text ((commandFunc env command).run ([] : Bytes) t) := by
  unfold commandFormats at hf
  split at hf
  next hroll =>
    rw [List.mem_singleton] at hf
    subst hf hroll
    exact written_cmdRoll
  next =>
    obtain ⟨e, he, hf⟩ := List.mem_flatMap.mp hf
    by_cases hname : arg0 command = some e.1
    · rw [if_pos hname] at hf
      simp only [argFormats, List.mem_cons, List.not_mem_nil, or_false] at he
      -- one case a command
      rcases he with rfl | rfl | rfl | rfl | rfl | rfl | rfl <;>
        simp only [List.mem_flatMap, List.mem_map, Option.mem_toList] at hf
      · obtain ⟨name, hn, block, hb, hf⟩ := hf
        rw [if_pos (getBid_ne block), List.mem_map] at hf
        obtain ⟨i, hi, rfl⟩ := hf
        refine written_of_mem (c := cmdPlotmotion env (arg1 command) (arg2 command)) (by simp [argCommands]) hname ?_
        rw [hn, hb]
        exact written_cmdPlotmotion (Option.mem_toList.mp hi)
      · obtain ⟨block, hb, hf⟩ := hf
        rw [if_pos (getBid_ne block), List.mem_singleton] at hf
        subst hf
        refine written_of_mem (c := cmdPaint (arg1 command)) (by simp [argCommands]) hname ?_
        rw [hb]
        exact written_cmdPaint
      · obtain ⟨name, hn, rfl⟩ := hf
        refine written_of_mem (c := cmdPaste (arg1 command)) (by simp [argCommands]) hname ?_
        rw [hn]
        exact .inr (.inl rfl)
      · obtain ⟨name, hn, rfl⟩ := hf
        refine written_of_mem (c := cmdCopy (arg1 command)) (by simp [argCommands]) hname ?_
        rw [hn]
        exact .inr (.inr rfl)
      · obtain ⟨speed, hs, rfl⟩ := hf
        refine written_of_mem (c := cmdZspeed (arg1 command)) (by simp [argCommands]) hname ?_
        rw [hs]
        exact written_cmdZspeed speed
      · obtain ⟨name, hn, i, hi, rfl⟩ := hf
        refine written_of_mem (c := cmdFind env (arg1 command)) (by simp [argCommands]) hname ?_
        rw [hn]
        exact written_cmdFind hi
      · obtain ⟨name, hn, i, hi, rfl⟩ := hf
        refine written_of_mem (c := cmdIgnore env (arg1 command)) (by simp [argCommands]) hname ?_
        rw [hn]
        exact written_cmdIgnore hi
    · rw [if_neg hname] at hf
      exact absurd hf List.not_mem_nil

end Commands

/-! ## The other buffers -/

/-- A click writes the chunk name behind a prefix. -/
theorem click_fits_iff (t : Tunnel) :
    AllFit (clickFormats t) ↔ (t.zPlace = true → t.paste.place = true → strlen t.paste.chunkName ≤ 27) := by
  unfold clickFormats
  split
  next h =>
    rw [allFit_singleton, fits_iff, List.length_append, length_lava]
    show 21 + 15 + strlen t.paste.chunkName + 1 ≤ 64 ↔ _
    constructor
    · intro hle _ _
      omega
    · intro hle
      have hshort := hle h.1 h.2
      omega
  next h => exact iff_of_true allFit_nil (fun hz hp => absurd ⟨hz, hp⟩ h)

/-- The terminator of `tinfo` is always outside. -/
theorem tinfo_overflows (l : Login) : ¬ (tinfoFormat l).Fits := by
  unfold tinfoFormat
  rw [fits_iff, length_infoText]
  omega

theorem direct_fits_iff (l : Login) :
    (directFormat l).Fits ↔
      strlen l.ipa + (decimal l.port).length + strlen l.username + strlen l.mppass ≤ 66 := by
  unfold directFormat
  rw [fits_iff]
  unfold directText strlen
  simp only [List.length_append, List.length_cons]
  omega

/-- A click sends its format. -/
theorem written_pastePoint {t : Tunnel} {f : Formatted} (hf : f ∈ clickFormats t) (x y z : UInt16) :
    Written f.text ((Server.pastePoint x y z).run ([] : Bytes) t) := by
  unfold clickFormats at hf
  split at hf
  next h =>
    rw [List.mem_singleton] at hf
    subst hf
    apply written_told
    simp [Server.pastePoint, h.2, tunnelMsg, told]
  next => exact absurd hf List.not_mem_nil

theorem saveInfo_eq_sprintf (behind : Bytes → Bytes) (l : Login) :
    saveInfo behind l = sprintf behind (tinfoFormat l).size (tinfoFormat l).text := rfl

theorem writeDirect_eq_sprintf (behind : Bytes → Bytes) (l : Login) :
    writeDirect behind l = sprintf behind (directFormat l).size (directFormat l).text := rfl

/-- **Formatted messages and their buffers.** `commandFunc` and a click stay inside theirs just if the arguments, the
    names and the chunk name are short; `direct` holds 69 characters with three newlines among them; `tinfo` is always
    one byte too short. -/
theorem formats_fit_iff (env : Env) (command : Bytes) (t : Tunnel) (l : Login) (hlow : -2 ^ 31 ≤ t.cuboid.zspeed)
    (hhigh : t.cuboid.zspeed < 2 ^ 31) :
    (AllFit (commandFormats env command t) ↔ ShortArguments env command t) ∧
      (AllFit (clickFormats t) ↔ (t.zPlace = true → t.paste.place = true → strlen t.paste.chunkName ≤ 27)) ∧
      ((directFormat l).Fits ↔
        strlen l.ipa + (decimal l.port).length + strlen l.username + strlen l.mppass ≤ 66) ∧
      ¬ (tinfoFormat l).Fits :=
  ⟨command_fits_iff hlow hhigh, click_fits_iff t, direct_fits_iff l, tinfo_overflows l⟩

/-- `paste` with a name of 51 characters. -/
def longPaste : Bytes := ascii "paste " ++ List.replicate 51 97

theorem formats_fit_iff_longPaste :
    (AllFit (commandFormats {} longPaste {}) ↔ ShortArguments {} longPaste {}) ∧
      (AllFit (clickFormats {}) ↔ (({} : Tunnel).zPlace = true → ({} : Tunnel).paste.place = true →
        strlen ({} : Tunnel).paste.chunkName ≤ 27)) ∧
      ((directFormat {}).Fits ↔ strlen ({} : Login).ipa + (decimal ({} : Login).port).length +
        strlen ({} : Login).username + strlen ({} : Login).mppass ≤ 66) ∧
      ¬ (tinfoFormat {}).Fits :=
  formats_fit_iff {} longPaste {} {} (by decide) (by decide)

/-- The name of the chunk is longer than its buffer. -/
theorem chunkName_overflows : ¬ ∀ (env : Env) (command : Bytes) (t : Tunnel) (l : Login), command.length ≤ 61 →
    (∀ i, strlen (t.player i).username ≤ 62) → -2 ^ 31 ≤ t.cuboid.zspeed → t.cuboid.zspeed < 2 ^ 31 →
    strlen l.username ≤ 63 ∧ strlen l.password ≤ 63 ∧ strlen l.hash ≤ 63 ∧ strlen l.ipa ≤ 63 ∧ strlen l.mppass ≤ 63 →
    AllFit (commandFormats env command t) ∧ AllFit (clickFormats t) ∧ (tinfoFormat l).Fits ∧
      (directFormat l).Fits := by
  intro hall
  have hnames (i : Int) : strlen (({} : Tunnel).player i).username ≤ 62 := by
    show strlen (List.replicate 64 0) ≤ 62
    decide
  have hcommand := (hall {} longPaste {} {} (by decide) hnames (by decide) (by decide) (by decide)).1
  have hname : arg1 longPaste = some (List.replicate 51 97) := by decide
  have hfits : Formatted.Fits ⟨64, chunkFile (List.replicate 51 97)⟩ := by
    apply hcommand
    have harg : arg0 longPaste = some (ascii "paste") := by decide
    have hroll : longPaste ≠ ascii "roll" := by decide
    unfold commandFormats
    rw [if_neg hroll, List.mem_flatMap]
    refine ⟨(ascii "paste", [⟨64, chunkFile (List.replicate 51 97)⟩]), ?_, ?_⟩
    · simp [argFormats, hname]
    · rw [if_pos harg]
      exact List.mem_singleton_self _
  rw [chunk_fits_iff] at hfits
  exact absurd hfits (by decide)

end LavaTunnel
