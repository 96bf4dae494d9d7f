import LavaTunnel.Correctness.Requests
import LavaTunnel.Correctness.Strings

/-!
# `LavaTunnel.Correctness.Refusals` — commands that cannot be carried out

A command that cannot be carried out says so and changes nothing, if what is missing is an argument. What an argument
means is found out later, and not always: `getBid` has no answer for an unknown block but the id of air, any text is
a speed, and two of the searches end without a word. Four of the searches compare with `strEqual`, whose buffers hold
what the call before has left, so that they can hit a name that does not begin with the argument.
-/

namespace LavaTunnel

open Wire Wire.Prog

/-! ## Block names -/

/-- The texts that `getBid` compares with. -/
def ListedBlock (s : Bytes) : Prop := ∃ e ∈ blockNames, s ∈ e.1.map ascii

instance (s : Bytes) : Decidable (ListedBlock s) := inferInstanceAs (Decidable (∃ e ∈ blockNames, _))

/-- What `getBid` says it returns: the id of the block of that name, the id that the text is the number of, or `-1`. -/
def documentedBid (s : Bytes) : UInt8 :=
  match blockNames.find? (fun e => e.1.head?.map ascii == some s) with
  | some e => e.2
  | none =>
      match blockNames.find? (fun e => decimal e.2.toNat == s) with
      | some e => e.2
      | none => 255

/-- The text is the block argument of the command. -/
def BlockArgument (command s : Bytes) : Prop :=
  arg0 command = some (ascii "plotmotion") ∧ arg2 command = some s ∨
    (arg0 command = some (ascii "paint") ∨ arg0 command = some (ascii "z")) ∧ arg1 command = some s

/-- What a command can change, but for the position: the toggles, what is to be built, and whom it is about. -/
def Tunnel.commandable (t : Tunnel) :=
  ((t.hide, t.gimped, t.paint, t.zPlace, t.points), (t.cuboid, t.copy, t.paste), (t.plotBlock, t.paintBid),
    fun i => ((t.player i).mode, (t.player i).ignore))

/-- **Of the texts it compares with** `getBid` returns what it says. -/
theorem getBid_of_listed {s : Bytes} (h : ListedBlock s) : getBid s = documentedBid s := by
  have hall : ∀ e ∈ blockNames, ∀ s ∈ e.1.map ascii, getBid s = documentedBid s := by decide +kernel
  obtain ⟨e, he, hs⟩ := h
  exact hall e he s hs

/-- Everything else is air. -/
theorem getBid_of_not_listed {s : Bytes} (h : ¬ ListedBlock s) : getBid s = 0 := by
  have hnone : blockNames.find? (fun e => (e.1.map ascii).contains s) = none := by
    rw [List.find?_eq_none]
    intro e he hs
    exact h ⟨e, he, by simpa using hs⟩
  unfold getBid
  rw [hnone]

/-- Air is one of the texts. -/
theorem listed_of_documentedBid_eq_zero {s : Bytes} (h : documentedBid s = 0) : ListedBlock s := by
  -- found by its name or by its number, the block with the id 0 is air
  have hair : ∀ e ∈ blockNames, e.2 = 0 → e.1 = ["air", "0"] := by decide
  unfold documentedBid at h
  cases hname : blockNames.find? (fun e => e.1.head?.map ascii == some s) with
  | some e =>
      rw [hname] at h
      have he := List.mem_of_find?_eq_some hname
      have hs : e.1.head?.map ascii = some s := by simpa using List.find?_some hname
      rw [hair e he h, List.head?_cons, Option.map_some, Option.some.injEq] at hs
      exact ⟨e, he, by rw [hair e he h, ← hs]; exact List.mem_cons_self⟩
  | none =>
      rw [hname] at h
      dsimp only at h
      cases hnumber : blockNames.find? (fun e => decimal e.2.toNat == s) with
      | some e =>
          rw [hnumber] at h
          have he := List.mem_of_find?_eq_some hnumber
          have hs : decimal e.2.toNat = s := by simpa using List.find?_some hnumber
          have hzero : e.2 = 0 := h
          refine ⟨e, he, ?_⟩
          rw [hair e he h, ← hs, hzero]
          decide +kernel
      | none =>
          rw [hnumber] at h
          exact absurd h (by decide)

/-- **`getBid` returns what it says** just if the text is one of those it compares with. Then the commands that take a
    block start nothing with an argument that is none. -/
theorem getBid_documented_iff (s : Bytes) :
    (getBid s = documentedBid s ∧ (documentedBid s = 255 → ∀ env t command, BlockArgument command s →
        (commanded env command t).commandable = t.commandable)) ↔ ListedBlock s := by
  constructor
  · rintro ⟨hbid, -⟩
    by_contra hnot
    rw [getBid_of_not_listed hnot] at hbid
    exact hnot (listed_of_documentedBid_eq_zero hbid.symm)
  · intro h
    have hbid := getBid_of_listed h
    exact ⟨hbid, fun hunknown => absurd (hbid.trans hunknown) (getBid_ne s)⟩

/-- A typing error is air. -/
theorem getBid_typo : ¬ ∀ s : Bytes, getBid s = documentedBid s ∧
    (documentedBid s = 255 → ∀ env t command, BlockArgument command s →
      (commanded env command t).commandable = t.commandable) := by
  intro hall
  exact absurd (hall (ascii "stome")).1 (by decide +kernel)

/-! ## Searches -/

/-- A search for a player: the indices, which names are hit, and whether it goes on behind the first hit. -/
structure Search where
  indices : List Int
  hit : Int → Bytes → Bool
  every : Bool := false

/-- The name of an entry. -/
def nameOf (t : Tunnel) (i : Int) : Bytes := cstr (t.player i).username

/-- The search hits an entry. -/
def Search.Hits (s : Search) (t : Tunnel) (i : Int) : Prop := s.hit i (nameOf t i) = true

instance (s : Search) (t : Tunnel) (i : Int) : Decidable (s.Hits t i) := inferInstanceAs (Decidable (_ = true))

/-- The search hits none of its entries. -/
def Search.HitsNobody (s : Search) (t : Tunnel) : Prop := ∀ i ∈ s.indices, ¬ s.Hits t i

/-- The players that a search selects. -/
def Search.selected (s : Search) (t : Tunnel) : List Int :=
  if s.every then s.indices.filter (fun i => s.hit i (cstr (t.player i).username))
  else (findPlayer t s.indices s.hit).toList

/-- **The first hit.** -/
theorem findPlayer_eq_some_iff {s : Search} {t : Tunnel} {i : Int} : findPlayer t s.indices s.hit = some i ↔
    ∃ before after, s.indices = before ++ i :: after ∧ s.Hits t i ∧ ∀ j ∈ before, ¬ s.Hits t j := by
  have hmiss : ∀ j, (!s.hit j (cstr (t.player j).username)) = true ↔ ¬ s.Hits t j := by
    intro j
    rw [Bool.not_eq_true', ← Bool.not_eq_true]
    exact Iff.rfl
  unfold findPlayer
  rw [List.find?_eq_some_iff_append]
  simp only [hmiss]
  constructor
  · rintro ⟨hhit, before, after, hindices, hbefore⟩
    exact ⟨before, after, hindices, hhit, hbefore⟩
  · rintro ⟨before, after, hindices, hhit, hbefore⟩
    exact ⟨hhit, before, after, hindices, hbefore⟩

/-- The search of a command, if it comes to that. -/
def searchOf (env : Env) (command : Bytes) : Option Search :=
  if arg0 command = some (ascii "tp") then (arg1 command).map fun name => ⟨ids, fun _ u => strstr u name, false⟩
  else if arg0 command = some (ascii "plotmotion") then
    (arg2 command).bind fun _ => (arg1 command).map fun name => ⟨ids, sameName env name, false⟩
  else if arg0 command = some (ascii "find") then
    (arg1 command).map fun name => ⟨-1 :: ids, sameName env name, false⟩
  else if arg0 command = some (ascii "ignore") then
    (arg1 command).map fun name => ⟨ids, sameName env name, false⟩
  else if arg0 command = some (ascii "follow") then
    (arg1 command).map fun name => ⟨ids, fun _ u => strstr u name, true⟩
  else if arg0 command = some (ascii "spectate") then
    (arg1 command).map fun name => ⟨ids, sameName env name, false⟩
  else none

/-- The argument of a command is meant for a name: `tp` and `follow` look for it anywhere in the name, and `strEqual`
    says that it checks the beginning. -/
def MeantFor (command u : Bytes) : Prop :=
  ∃ name, arg1 command = some name ∧
    if arg0 command = some (ascii "tp") ∨ arg0 command = some (ascii "follow") then strstr u name = true
    else lowered name <+: lowered u

/-- What a message of the tunnel writes. -/
def told (text : Bytes) : List (Socket × Bytes) :=
  written serverSock [.send [0x0d], .send [0], .send (toMCString text)]

/-- The texts for a search without a hit. -/
def notFoundTexts : List Bytes := [lava "Can't find player.", lava "follow: couldn't find player."]

/-- The command says it when its search has no hit. `follow` asks a variable that it has not initialised. -/
def SaysNotFound (env : Env) (command : Bytes) : Prop :=
  arg0 command = some (ascii "tp") ∨ arg0 command = some (ascii "find") ∨ arg0 command = some (ascii "ignore") ∨
    arg0 command = some (ascii "follow") ∧ env.junk 3 0 = 0

/-! ## Failures -/

/-- The commands that cannot do without an argument. -/
def needArgument : List Bytes :=
  [ascii "tp", ascii "plotmotion", ascii "paint", ascii "paste", ascii "copy", ascii "zspeed", ascii "find",
    ascii "ignore", ascii "follow", ascii "spectate"]

/-- An argument is missing. -/
def MissingArgument (command : Bytes) : Prop :=
  (∃ name ∈ needArgument, arg0 command = some name) ∧ arg1 command = none ∨
    arg0 command = some (ascii "plotmotion") ∧ arg2 command = none

/-- The block argument is neither a name nor an id. -/
def UnknownBlock (command : Bytes) : Prop := ∃ block, BlockArgument command block ∧ documentedBid block = 255

/-- A number, with a sign or without. -/
def IsNumber (s : Bytes) : Prop :=
  ∃ digits : Bytes, digits ≠ [] ∧ (∀ c ∈ digits, 48 ≤ c ∧ c ≤ 57) ∧
    (s = digits ∨ s = 43 :: digits ∨ s = 45 :: digits)

/-- The speed is neither a number nor `none`. -/
def NoSpeed (command : Bytes) : Prop :=
  arg0 command = some (ascii "zspeed") ∧ ∃ speed, arg1 command = some speed ∧ speed ≠ ascii "none" ∧ ¬ IsNumber speed

/-- The search of the command hits no player. -/
def HitsNobody (env : Env) (t : Tunnel) (command : Bytes) : Prop :=
  ∃ s, searchOf env command = some s ∧ s.HitsNobody t

/-- The name matches no player: none is hit, or it is meant for none. -/
def NoPlayer (env : Env) (t : Tunnel) (command : Bytes) : Prop :=
  ∃ s, searchOf env command = some s ∧ (s.HitsNobody t ∨ ∀ i ∈ s.indices, ¬ MeantFor command (nameOf t i))

/-- The command cannot be carried out. -/
def Fails (env : Env) (t : Tunnel) (command : Bytes) : Prop :=
  MissingArgument command ∨ UnknownBlock command ∨ NoSpeed command ∨ NoPlayer env t command

/-- What the code says of a command that cannot be carried out. -/
def failureTexts : List Bytes :=
  notFoundTexts ++
    [lava "tp: missing argument.", lava "plotmotion: Missing playername", lava "plotmotion: Missing block",
      lava "plotmotion: unknown block", lava "paint: Missing argument.", lava "z: Unknown block!",
      lava "paste: missing chunkname", lava "copy: missing chunkname", lava "zspeed: missing argument.",
      lava "find: missing argument.", lava "ignore: missing argument.", lava "follow: missing argument.",
      lava "spectate: missing argument."]

/-- What `find` says of an entry. -/
def foundText (p : Player) : Bytes :=
  lava "" ++ cstr p.username ++ ascii " found at " ++ decimal (p.x.toNat / 32 : Nat) ++ ascii ", " ++
    decimal (p.y.toNat / 32 : Nat) ++ ascii ", " ++ decimal (p.z.toNat / 32 : Nat) ++ ascii " (" ++
    decimal p.yaw.toNat ++ ascii ", " ++ decimal p.pitch.toNat ++ ascii ")"

/-- `find` hits an entry whose name fills the message so that it reads like a complaint. -/
def FindsComplaint (env : Env) (t : Tunnel) (command : Bytes) : Prop :=
  arg0 command = some (ascii "find") ∧ ∃ s, searchOf env command = some s ∧
    ∃ i, (∃ before after, s.indices = before ++ i :: after ∧ s.Hits t i ∧ ∀ j ∈ before, ¬ s.Hits t j) ∧
      ∃ complaint ∈ failureTexts, toMCString (foundText (t.player i)) = toMCString complaint

/-- What a command writes. -/
def answered (env : Env) (text : Bytes) (t : Tunnel) : List (Socket × Bytes) :=
  ((commandFunc env text).run ([] : Bytes) t).out

/-- The command has been refused: one message says so, and nothing has changed. -/
def Refused (env : Env) (text : Bytes) (t : Tunnel) : Prop :=
  (∃ complaint ∈ failureTexts, answered env text t = told complaint) ∧
    (commanded env text t).commandable = t.commandable

section Answers

variable {env : Env} {text name : Bytes} {t : Tunnel}

/-- A command answers as its function does. -/
theorem run_of_mem {c : Code Unit} (hmem : (name, c) ∈ argCommands env text) (h : arg0 text = some name) :
    answered env text t = (c.run ([] : Bytes) t).out ∧ commanded env text t = (c.run ([] : Bytes) t).state := by
  unfold answered commanded
  rw [commandFunc_of_mem hmem h, run_bind_pure]
  exact ⟨rfl, rfl⟩

/-- A message is the 64 characters of its text. -/
theorem told_inj {said complaint : Bytes} : told said = told complaint ↔ toMCString said = toMCString complaint := by
  simp [told, written]

/-- What a message begins with. -/
theorem take_of_told {start rest complaint : Bytes} (h0 : 0 ∉ start) (hlen : start.length ≤ 64)
    (h : told (start ++ rest) = told complaint) : (toMCString complaint).take start.length = start := by
  rw [← told_inj.mp h]
  unfold toMCString
  dsimp only
  rw [cstr_append h0, List.take_append_of_le_length, List.take_take, Nat.min_eq_left hlen, List.take_left]
  rw [List.length_take, List.length_append]
  omega

/-- No complaint begins as the messages of success do. -/
theorem not_failureTexts_start : ∀ start ∈ ["Painting with '", "z: Place two points.", "zspeed: speed set to "],
    0 ∉ lava start ∧ (lava start).length ≤ 64 ∧
      ∀ complaint ∈ failureTexts, (toMCString complaint).take (lava start).length ≠ lava start := by
  decide +kernel

/-- No other message of the commands is a complaint. -/
theorem told_ne {start : String} (hstart : start ∈ ["Painting with '", "z: Place two points.", "zspeed: speed set to "])
    (rest : Bytes) : ∀ complaint ∈ failureTexts, told (lava start ++ rest) ≠ told complaint := by
  obtain ⟨h0, hlen, hne⟩ := not_failureTexts_start start hstart
  intro complaint hmem h
  exact hne complaint hmem (take_of_told h0 hlen h)

theorem nil_ne_told (complaint : Bytes) : ([] : List (Socket × Bytes)) ≠ told complaint :=
  fun h => List.cons_ne_nil _ _ h.symm

theorem refused_of_run {c : Code Unit} (hmem : (name, c) ∈ argCommands env text) (h : arg0 text = some name)
    {complaint : Bytes} (hc : c.run ([] : Bytes) t = ⟨some (), [], t, told complaint⟩)
    (hcomplaint : complaint ∈ failureTexts) : Refused env text t := by
  obtain ⟨hout, hstate⟩ := run_of_mem (t := t) hmem h
  rw [hc] at hout hstate
  refine ⟨⟨complaint, hcomplaint, hout⟩, ?_⟩
  rw [hstate]

/-! ### A missing argument -/

/-- A command that complains when it has no argument. -/
theorem refused_of_none {c : Option Bytes → Code Unit} (hmem : (name, c (arg1 text)) ∈ argCommands env text)
    (h0 : arg0 text = some name) (h1 : arg1 text = none) {complaint : Bytes}
    (hc : (c none).run ([] : Bytes) t = ⟨some (), [], t, told complaint⟩) (hcomplaint : complaint ∈ failureTexts) :
    Refused env text t := by
  rw [← h1] at hc
  exact refused_of_run hmem h0 hc hcomplaint

/-- **A missing argument is refused** by every command. -/
theorem refused_of_missing (h : MissingArgument text) : Refused env text t := by
  rcases h with ⟨⟨name, hname, h0⟩, h1⟩ | ⟨h0, h2⟩
  · simp only [needArgument, List.mem_cons, List.not_mem_nil, or_false] at hname
    rcases hname with rfl | rfl | rfl | rfl | rfl | rfl | rfl | rfl | rfl | rfl
    · exact refused_of_none (c := cmdTp) (by simp [argCommands]) h0 h1 rfl (by simp [failureTexts])
    · exact refused_of_none (c := fun name => cmdPlotmotion env name (arg2 text))
        (by simp [argCommands]) h0 h1 rfl (by simp [failureTexts])
    · exact refused_of_none (c := cmdPaint) (by simp [argCommands]) h0 h1 rfl (by simp [failureTexts])
    · exact refused_of_none (c := cmdPaste) (by simp [argCommands]) h0 h1 rfl (by simp [failureTexts])
    · exact refused_of_none (c := cmdCopy) (by simp [argCommands]) h0 h1 rfl (by simp [failureTexts])
    · exact refused_of_none (c := cmdZspeed) (by simp [argCommands]) h0 h1 rfl (by simp [failureTexts])
    · exact refused_of_none (c := cmdFind env) (by simp [argCommands]) h0 h1 rfl (by simp [failureTexts])
    · exact refused_of_none (c := cmdIgnore env) (by simp [argCommands]) h0 h1 rfl (by simp [failureTexts])
    · exact refused_of_none (c := cmdFollow env) (by simp [argCommands]) h0 h1 rfl (by simp [failureTexts])
    · exact refused_of_none (c := cmdSpectate env) (by simp [argCommands]) h0 h1 rfl (by simp [failureTexts])
  · have hrun : (cmdPlotmotion env (arg1 text) (arg2 text)).run ([] : Bytes) t =
        ⟨some (), [], t, told (if arg1 text = none then lava "plotmotion: Missing playername"
          else lava "plotmotion: Missing block")⟩ := by
      rw [h2]
      cases arg1 text with
      | none => rfl
      | some name => rfl
    refine refused_of_run (by simp [argCommands]) h0 hrun ?_
    split
    · simp [failureTexts]
    · simp [failureTexts]

/-! ### A search without a hit -/

/-- The commands that search, each with its search. -/
theorem searchOf_cases {s : Search} (h : searchOf env text = some s) : ∃ name, arg1 text = some name ∧
    (arg0 text = some (ascii "tp") ∧ s = ⟨ids, fun _ u => strstr u name, false⟩ ∨
      arg0 text = some (ascii "plotmotion") ∧ (∃ block, arg2 text = some block) ∧
        s = ⟨ids, sameName env name, false⟩ ∨
      arg0 text = some (ascii "find") ∧ s = ⟨-1 :: ids, sameName env name, false⟩ ∨
      arg0 text = some (ascii "ignore") ∧ s = ⟨ids, sameName env name, false⟩ ∨
      arg0 text = some (ascii "follow") ∧ s = ⟨ids, fun _ u => strstr u name, true⟩ ∨
      arg0 text = some (ascii "spectate") ∧ s = ⟨ids, sameName env name, false⟩) := by
  -- one test a command, in the order of `searchOf`
  unfold searchOf at h
  split at h
  · rename_i h0
    obtain ⟨name, h1, rfl⟩ := Option.map_eq_some_iff.mp h
    exact ⟨name, h1, .inl ⟨h0, rfl⟩⟩
  split at h
  · rename_i h0
    obtain ⟨block, h2, h⟩ := Option.bind_eq_some_iff.mp h
    obtain ⟨name, h1, rfl⟩ := Option.map_eq_some_iff.mp h
    exact ⟨name, h1, .inr (.inl ⟨h0, ⟨block, h2⟩, rfl⟩)⟩
  split at h
  · rename_i h0
    obtain ⟨name, h1, rfl⟩ := Option.map_eq_some_iff.mp h
    exact ⟨name, h1, .inr (.inr (.inl ⟨h0, rfl⟩))⟩
  split at h
  · rename_i h0
    obtain ⟨name, h1, rfl⟩ := Option.map_eq_some_iff.mp h
    exact ⟨name, h1, .inr (.inr (.inr (.inl ⟨h0, rfl⟩)))⟩
  split at h
  · rename_i h0
    obtain ⟨name, h1, rfl⟩ := Option.map_eq_some_iff.mp h
    exact ⟨name, h1, .inr (.inr (.inr (.inr (.inl ⟨h0, rfl⟩))))⟩
  split at h
  · rename_i h0
    obtain ⟨name, h1, rfl⟩ := Option.map_eq_some_iff.mp h
    exact ⟨name, h1, .inr (.inr (.inr (.inr (.inr ⟨h0, rfl⟩))))⟩
  · exact absurd h (by simp)

/-- A loop over players that none of them is for. -/
theorem run_forEach_idle {β : Type} {body : β → Code Unit} {bs : List β}
    (h : ∀ b ∈ bs, (body b).run ([] : Bytes) t = ⟨some (), [], t, []⟩) :
    (forEach body bs).run ([] : Bytes) t = ⟨some (), [], t, []⟩ := by
  induction bs with
  | nil => rfl
  | cons b bs ih =>
      show (do body b; forEach body bs).run ([] : Bytes) t = _
      rw [run_bind_of (h b List.mem_cons_self), ih (fun b hb => h b (List.mem_cons_of_mem _ hb))]
      rfl

/-- `follow` without a hit. -/
theorem run_cmdFollow_idle (env : Env) (hnone : ∀ i ∈ ids, strstr (cstr (t.player i).username) name = false) :
    (cmdFollow env (some name)).run ([] : Bytes) t =
      ⟨some (), [], t, if env.junk 3 0 = 0 then told (lava "follow: couldn't find player.") else []⟩ := by
  have hfind : findPlayer t ids (fun _ u => strstr u name) = none := by
    unfold findPlayer
    rw [List.find?_eq_none]
    intro i hi
    exact ne_true_of_eq_false (hnone i hi)
  unfold cmdFollow
  dsimp only
  rw [run_getState_bind, run_bind_of (run_forEach_idle fun i hi => ?_), hfind]
  · by_cases hjunk : env.junk 3 0 = 0
    · rw [if_pos hjunk, onlyIf_pos ⟨hjunk, rfl⟩]
      rfl
    · rw [if_neg hjunk, onlyIf_neg (fun h => hjunk h.1)]
      rfl
  · rw [run_getState_bind, onlyIf_neg (by rw [hnone i hi]; decide)]
    rfl

/-- The command says that nobody has been found, or it says nothing; it says so if it should. -/
structure AnswersNotFound (env : Env) (text : Bytes) (t : Tunnel) : Prop where
  spoken : SaysNotFound env text →
    (∃ complaint ∈ notFoundTexts, answered env text t = told complaint) ∧ commanded env text t = t
  silent : ¬ SaysNotFound env text → answered env text t = []

theorem answersNotFound_of_told (complaint : Bytes) {c : Code Unit} (hmem : (name, c) ∈ argCommands env text)
    (h0 : arg0 text = some name) (hanswer : SaysNotFound env text) (hcomplaint : complaint ∈ notFoundTexts)
      (hrun : c.run ([] : Bytes) t = ⟨some (), [], t, told complaint⟩) : AnswersNotFound env text t := by
  obtain ⟨hout, hstate⟩ := run_of_mem (t := t) hmem h0
  rw [hrun] at hout hstate
  exact ⟨fun _ => ⟨⟨complaint, hcomplaint, hout⟩, hstate⟩, fun hnot => absurd hanswer hnot⟩

theorem answersNotFound_of_nil {c : Code Unit} (hmem : (name, c) ∈ argCommands env text) (h0 : arg0 text = some name)
    (hnot : ¬ SaysNotFound env text) (hrun : (c.run ([] : Bytes) t).out = []) : AnswersNotFound env text t :=
  ⟨fun hanswer => absurd hanswer hnot, fun _ => (run_of_mem hmem h0).1.trans hrun⟩

/-- **What a search without a hit is answered with.** -/
theorem answersNotFound (h : HitsNobody env t text) : AnswersNotFound env text t := by
  obtain ⟨s, hs, hnone⟩ := h
  obtain ⟨name, h1, hcases⟩ := searchOf_cases hs
  have hfirst : findPlayer t s.indices s.hit = none := List.find?_eq_none.mpr hnone
  rcases hcases with ⟨h0, rfl⟩ | ⟨h0, ⟨block, h2⟩, rfl⟩ | ⟨h0, rfl⟩ | ⟨h0, rfl⟩ | ⟨h0, rfl⟩ | ⟨h0, rfl⟩
  · refine answersNotFound_of_told (lava "Can't find player.") (c := cmdTp (arg1 text)) (by simp [argCommands]) h0
      (.inl h0) (by simp [notFoundTexts]) ?_
    rw [h1]
    unfold cmdTp
    dsimp only
    rw [run_getState_bind, hfirst]
    rfl
  · refine answersNotFound_of_nil (c := cmdPlotmotion env (arg1 text) (arg2 text)) (by simp [argCommands]) h0 ?_ ?_
    · rintro (h | h | h | ⟨h, -⟩) <;> exact absurd (h0.symm.trans h) (by decide)
    · -- the block has been set already, and that does not matter to the search
      have hset : findPlayer { t with plotBlock := getBid block } ids (sameName env name) = none :=
        hfirst
      rw [h1, h2]
      unfold cmdPlotmotion
      dsimp only
      rw [if_pos (getBid_ne block), run_update_bind, run_getState_bind, hset]
      rfl
  · refine answersNotFound_of_told (lava "Can't find player.") (c := cmdFind env (arg1 text))
      (by simp [argCommands]) h0 (.inr (.inl h0)) (by simp [notFoundTexts]) ?_
    rw [h1]
    unfold cmdFind
    dsimp only
    rw [run_getState_bind, hfirst]
    rfl
  · refine answersNotFound_of_told (lava "Can't find player.") (c := cmdIgnore env (arg1 text))
      (by simp [argCommands]) h0 (.inr (.inr (.inl h0))) (by simp [notFoundTexts]) ?_
    rw [h1]
    unfold cmdIgnore
    dsimp only
    rw [run_getState_bind, hfirst]
    rfl
  · have hidle : ∀ i ∈ ids, strstr (cstr (t.player i).username) name = false := by
      intro i hi
      exact eq_false_of_ne_true (hnone i hi)
    have hrun := run_cmdFollow_idle env hidle
    by_cases hjunk : env.junk 3 0 = 0
    · rw [if_pos hjunk] at hrun
      exact answersNotFound_of_told (lava "follow: couldn't find player.") (c := cmdFollow env (arg1 text))
        (by simp [argCommands]) h0 (.inr (.inr (.inr ⟨h0, hjunk⟩))) (by simp [notFoundTexts]) (by rw [h1]; exact hrun)
    · rw [if_neg hjunk] at hrun
      refine answersNotFound_of_nil (c := cmdFollow env (arg1 text)) (by simp [argCommands]) h0 ?_
        (by rw [h1, hrun])
      rintro (h | h | h | ⟨-, h⟩)
      · exact absurd (h0.symm.trans h) (by decide)
      · exact absurd (h0.symm.trans h) (by decide)
      · exact absurd (h0.symm.trans h) (by decide)
      · exact hjunk h
  · refine answersNotFound_of_nil (c := cmdSpectate env (arg1 text)) (by simp [argCommands]) h0 ?_ ?_
    · rintro (h | h | h | ⟨h, -⟩) <;> exact absurd (h0.symm.trans h) (by decide)
    · rw [h1]
      unfold cmdSpectate
      dsimp only
      rw [run_getState_bind, hfirst]
      rfl

/-! ### What is carried out all the same -/

/-- What a command with another answer is not. -/
theorem not_refused_of_told (said : Bytes) {c : Code Unit} (hmem : (name, c) ∈ argCommands env text)
    (h0 : arg0 text = some name) (hsaid : ∀ complaint ∈ failureTexts, told said ≠ told complaint)
    (hout : (c.run ([] : Bytes) t).out = told said) : ¬ Refused env text t := by
  rintro ⟨⟨complaint, hcomplaint, hanswer⟩, -⟩
  rw [(run_of_mem hmem h0).1, hout] at hanswer
  exact hsaid complaint hcomplaint hanswer

/-- With a third token there is a second one. -/
theorem arg1_of_arg2 {block : Bytes} (h : arg2 text = some block) : ∃ name, arg1 text = some name := by
  cases h1 : arg1 text with
  | some name => exact ⟨name, rfl⟩
  | none =>
      have hend : ∀ s : Bytes, (strtok s).1 = none → (strtok s).2 = [] := by
        intro s hs
        unfold strtok at hs ⊢
        dsimp only at hs ⊢
        split
        · rfl
        · next hne => rw [if_neg hne] at hs; exact absurd hs (by simp)
      unfold arg2 at h
      rw [hend _ h1] at h
      exact absurd h.symm (Option.some_ne_none block)

/-- `plotmotion` with both arguments is never refused. -/
theorem not_refused_plotmotion {block : Bytes} (h0 : arg0 text = some (ascii "plotmotion"))
    (h2 : arg2 text = some block) : ¬ Refused env text t := by
  rintro ⟨⟨complaint, -, hanswer⟩, -⟩
  rw [(run_of_mem (c := cmdPlotmotion env (arg1 text) (arg2 text)) (by simp [argCommands]) h0).1, h2] at hanswer
  -- there is no answer, or a position comes before it
  have hlen := congrArg List.length hanswer
  obtain ⟨name, h1⟩ := arg1_of_arg2 h2
  rw [h1] at hlen
  unfold cmdPlotmotion at hlen
  dsimp only at hlen
  rw [if_pos (getBid_ne block), run_update_bind, run_getState_bind] at hlen
  cases hfind : findPlayer { t with plotBlock := getBid block } ids (sameName env name) with
  | none =>
      rw [hfind] at hlen
      exact absurd hlen (Nat.zero_ne_add_one 2)
  | some i =>
      rw [hfind] at hlen
      have hten : 10 = 3 := hlen
      exact absurd hten (by decide)

/-- **An unknown block** is never refused. -/
theorem not_refused_of_unknownBlock (h : UnknownBlock text) : ¬ Refused env text t := by
  obtain ⟨block, harg, -⟩ := h
  rcases harg with ⟨h0, h2⟩ | ⟨h0 | h0, h1⟩
  · exact not_refused_plotmotion h0 h2
  · refine not_refused_of_told (lava "Painting with '" ++ (block ++ ascii "'.")) (c := cmdPaint (arg1 text))
      (by simp [argCommands]) h0 (told_ne (by simp) _) ?_
    rw [h1, ← List.append_assoc]
    unfold cmdPaint
    dsimp only
    rw [if_pos (getBid_ne block)]
    rfl
  · refine not_refused_of_told (lava "z: Place two points." ++ []) (c := cmdZ (arg1 text)) (by simp [argCommands]) h0
      (told_ne (by simp) _) ?_
    rw [h1, List.append_nil]
    unfold cmdZ
    rw [cmdZBlock_some]
    rfl

/-- **Any text is a speed.** -/
theorem not_refused_of_noSpeed (h : NoSpeed text) : ¬ Refused env text t := by
  obtain ⟨h0, speed, h1, hnone, -⟩ := h
  refine not_refused_of_told (lava "zspeed: speed set to " ++ (decimal (atoi speed) ++ ascii "ms."))
    (c := cmdZspeed (arg1 text)) (by simp [argCommands]) h0
    (told_ne (by simp) _) ?_
  rw [h1, ← List.append_assoc]
  unfold cmdZspeed setZspeed
  dsimp only
  rw [if_neg hnone]
  rfl

/-! ### A search that hits what is not meant -/

/-- `spectate` with a hit teleports. -/
theorem not_refused_spectate {i : Int} (h0 : arg0 text = some (ascii "spectate")) (h1 : arg1 text = some name)
    (hfind : findPlayer t ids (sameName env name) = some i) : ¬ Refused env text t := by
  rintro ⟨⟨complaint, -, hanswer⟩, -⟩
  rw [(run_of_mem (c := cmdSpectate env (arg1 text)) (by simp [argCommands]) h0).1, h1] at hanswer
  have hlen := congrArg List.length hanswer
  unfold cmdSpectate at hlen
  dsimp only at hlen
  rw [run_getState_bind, hfind] at hlen
  have hseven : 7 = 3 := hlen
  exact absurd hseven (by decide)

/-- `ignore` with a hit turns a flag over. -/
theorem not_refused_ignore {i : Int} (h0 : arg0 text = some (ascii "ignore")) (h1 : arg1 text = some name)
    (hfind : findPlayer t ids (sameName env name) = some i) : ¬ Refused env text t := by
  rintro ⟨-, hsame⟩
  have hplayers := congrArg (fun c => (c.2.2.2 i).2) hsame
  have hflag : ((commanded env text t).player i).ignore = (t.player i).ignore := hplayers
  rw [(run_of_mem (c := cmdIgnore env (arg1 text)) (by simp [argCommands]) h0).2, h1] at hflag
  unfold cmdIgnore at hflag
  dsimp only at hflag
  rw [run_getState_bind, hfind] at hflag
  dsimp only at hflag
  cases hignore : (t.player i).ignore with
  | true =>
      rw [if_pos hignore, hignore] at hflag
      have hset : (Function.update t.player i { t.player i with ignore := false } i).ignore = true := hflag
      rw [Function.update_self] at hset
      exact absurd hset Bool.false_ne_true
  | false =>
      rw [if_neg (by rw [hignore]; decide), hignore] at hflag
      have hset : (Function.update t.player i { t.player i with ignore := true } i).ignore = false := hflag
      rw [Function.update_self] at hset
      exact absurd hset.symm Bool.false_ne_true

/-- `find` with a hit says where, and changes nothing. -/
theorem refused_find_iff {i : Int} (h0 : arg0 text = some (ascii "find")) (h1 : arg1 text = some name)
    (hfind : findPlayer t (-1 :: ids) (sameName env name) = some i) : Refused env text t ↔
      ∃ complaint ∈ failureTexts, toMCString (foundText (t.player i)) = toMCString complaint := by
  have hrun : (cmdFind env (arg1 text)).run ([] : Bytes) t = ⟨some (), [], t, told (foundText (t.player i))⟩ := by
    rw [h1]
    unfold cmdFind
    dsimp only
    rw [run_getState_bind, hfind]
    rfl
  have hmem : (ascii "find", cmdFind env (arg1 text)) ∈ argCommands env text := by simp [argCommands]
  obtain ⟨hout, hstate⟩ := run_of_mem (t := t) hmem h0
  rw [hrun] at hout hstate
  unfold Refused
  rw [hout, hstate, and_iff_left rfl]
  exact exists_congr fun complaint => and_congr_right fun _ => told_inj

/-- **A search that hits somebody, and is meant for nobody.** -/
theorem refused_of_hit_iff {s : Search} (hs : searchOf env text = some s) (hhits : ¬ s.HitsNobody t)
    (hmeant : ∀ i ∈ s.indices, ¬ MeantFor text (nameOf t i)) : Refused env text t ↔ FindsComplaint env t text := by
  obtain ⟨i, hfind⟩ : ∃ i, findPlayer t s.indices s.hit = some i := by
    cases hfind : findPlayer t s.indices s.hit with
    | none => exact absurd (List.find?_eq_none.mp hfind) hhits
    | some i => exact ⟨i, rfl⟩
  have hother : arg0 text ≠ some (ascii "find") → ¬ FindsComplaint env t text := fun hne h => hne h.1
  have hstrstr : ∀ name, arg1 text = some name → arg0 text = some (ascii "tp") ∨ arg0 text = some (ascii "follow") →
      s.indices = ids → s.hit = (fun _ u => strstr u name) → False := by
    intro name h1 h0 hindices hhit
    refine hhits fun i hi hstr => hmeant i hi ⟨name, h1, ?_⟩
    rw [if_pos h0]
    rwa [Search.Hits, hhit] at hstr
  obtain ⟨name, h1, hcases⟩ := searchOf_cases hs
  rcases hcases with ⟨h0, rfl⟩ | ⟨h0, ⟨block, h2⟩, rfl⟩ | ⟨h0, rfl⟩ | ⟨h0, rfl⟩ | ⟨h0, rfl⟩ | ⟨h0, rfl⟩
  · exact (hstrstr name h1 (.inl h0) rfl rfl).elim
  · exact iff_of_false (not_refused_plotmotion h0 h2) (hother (by rw [h0]; decide))
  · rw [refused_find_iff h0 h1 hfind]
    constructor
    · intro hcomplaint
      exact ⟨h0, _, hs, i, findPlayer_eq_some_iff.mp hfind, hcomplaint⟩
    · rintro ⟨-, s', hs', i', hfirst, hcomplaint⟩
      obtain rfl := Option.some.inj (hs.symm.trans hs')
      -- both are the first hit
      obtain rfl := Option.some.inj (hfind.symm.trans (findPlayer_eq_some_iff.mpr hfirst))
      exact hcomplaint
  · exact iff_of_false (not_refused_ignore h0 h1 hfind) (hother (by rw [h0]; decide))
  · exact (hstrstr name h1 (.inr h0) rfl rfl).elim
  · exact iff_of_false (not_refused_spectate h0 h1 hfind) (hother (by rw [h0]; decide))

end Answers

/-- **A command that cannot be carried out is refused**, and changes nothing, just if an argument is missing, or its
    search hits no player and the command says so, or `find` hits one whose name reads like a complaint. -/
theorem command_refused_iff (env : Env) (text : Bytes) (t : Tunnel) (h : Fails env t text) :
    Refused env text t ↔
      MissingArgument text ∨ HitsNobody env t text ∧ SaysNotFound env text ∨ FindsComplaint env t text := by
  constructor
  · intro hrefused
    rcases h with h | h | h | ⟨s, hs, h⟩
    · exact Or.inl h
    · exact absurd hrefused (not_refused_of_unknownBlock h)
    · exact absurd hrefused (not_refused_of_noSpeed h)
    · refine Or.inr ?_
      by_cases hnobody : s.HitsNobody t
      · -- a search without a hit is answered, or nothing is said
        by_cases hspeaks : SaysNotFound env text
        · exact Or.inl ⟨⟨s, hs, hnobody⟩, hspeaks⟩
        · have hsilent := (answersNotFound ⟨s, hs, hnobody⟩).silent hspeaks
          obtain ⟨⟨complaint, -, hanswer⟩, -⟩ := hrefused
          exact absurd (hsilent.symm.trans hanswer) (nil_ne_told complaint)
      · exact Or.inr ((refused_of_hit_iff hs hnobody (h.resolve_left hnobody)).mp hrefused)
  · rintro (hmissing | ⟨hnobody, hspeaks⟩ | ⟨h0, s, hs, i, hfirst, hcomplaint⟩)
    · exact refused_of_missing hmissing
    · obtain ⟨⟨complaint, hcomplaint, hanswer⟩, hstate⟩ := (answersNotFound hnobody).spoken hspeaks
      refine ⟨⟨complaint, List.mem_append_left _ hcomplaint, hanswer⟩, ?_⟩
      rw [hstate]
    · obtain ⟨name, h1, hcases⟩ := searchOf_cases hs
      rcases hcases with ⟨h, -⟩ | ⟨h, -⟩ | ⟨-, rfl⟩ | ⟨h, -⟩ | ⟨h, -⟩ | ⟨h, -⟩
      · exact absurd (h0.symm.trans h) (by decide)
      · exact absurd (h0.symm.trans h) (by decide)
      · exact (refused_find_iff h0 h1 (findPlayer_eq_some_iff.mpr hfirst)).mpr hcomplaint
      · exact absurd (h0.symm.trans h) (by decide)
      · exact absurd (h0.symm.trans h) (by decide)
      · exact absurd (h0.symm.trans h) (by decide)

/-- `tp` alone is refused. -/
theorem command_refused_tp : Refused {} (ascii "tp") {} := by
  have hmissing : MissingArgument (ascii "tp") := .inl ⟨⟨ascii "tp", by decide, by decide⟩, by decide⟩
  exact (command_refused_iff {} (ascii "tp") {} (.inl hmissing)).mpr (.inl hmissing)

/-- A typing error in the block of a cuboid is no failure to the code. -/
theorem typo_carried_out : ¬ ∀ (env : Env) (text : Bytes) (t : Tunnel), Fails env t text → Refused env text t := by
  intro hall
  have h0 : arg0 (ascii "z stome") = some (ascii "z") := by decide
  have hfails : UnknownBlock (ascii "z stome") :=
    ⟨ascii "stome", .inr ⟨.inr h0, by decide⟩, by decide +kernel⟩
  obtain ⟨-, hsame⟩ := hall {} (ascii "z stome") {} (.inr (.inl hfails))
  rw [commanded_z {} {} h0] at hsame
  have hplace : true = false := congrArg (fun c => c.2.1.1.place) hsame
  exact absurd hplace (by decide)

end LavaTunnel
