import LavaTunnel.Command
import LavaTunnel.Correctness.Tame

/-!
# `LavaTunnel.Correctness.Commands` — what every command does

A command neither receives nor ends the program, it leaves the level, the announced extensions, the gimp
texts (`Tunnel.kept`) and the user's position alone, and it depends on nothing that `Tunnel.read` clears.
All of them but `ptp` and `roll` write to the client only: `Heard`. One lemma a command; `spoken_commandFunc`
puts them together.
-/

namespace LavaTunnel

open Wire Wire.Prog

/-- What no command changes. -/
def Tunnel.kept (t : Tunnel) : (Int → UInt8) × Nat × UInt16 × UInt16 × UInt16 × CPE × CPE × Int :=
  (t.map, t.mapAlloc, t.lvlx, t.lvly, t.lvlz, t.cpeClient, t.cpeServer, t.gimpN)

/-- Where the user is, and whether hacks are on. -/
def Tunnel.settled (t : Tunnel) : User × Int × Bytes := (t.user, t.hax, t.haxType)

/-- All of that, and the level that is on its way. -/
def Tunnel.keptUser (t : Tunnel) := (t.kept, t.settled, t.mapC, t.mapSize)

/-- What the builder is to build, without the speed. -/
def Tunnel.builds (t : Tunnel) : Cuboid × Copy × Paste :=
  ({ t.cuboid with zlimit := false, zspeed := 0 }, t.copy, t.paste)

/-- A command, with what holds of all of them. -/
abbrev IsCommand {α : Type} (c : Code α) : Prop := c.Local Tunnel.kept IsPacket

/-- What `roll` says. -/
def rollText (n : Int) : Bytes := ascii "I rolled a " ++ decimal n ++ ascii "."

/-- A packet to the client. -/
def Heard (s : Socket) (bs : Bytes) : Prop := IsPacket s bs ∧ s = serverSock

/-- A packet to the client, or a roll. -/
def Told (s : Socket) (bs : Bytes) : Prop :=
  IsPacket s bs ∧ (s = tunnelSock → ∃ n, bs = 0x0d :: 0 :: toMCString (rollText n))

/-- A packet to the client, or one that places a block or moves the user. -/
def Walked (s : Socket) (bs : Bytes) : Prop := IsPacket s bs ∧ (s = tunnelSock → bs.head? ≠ some 0x0d)

/-- A command that writes what is in `P`. -/
abbrev Spoken {α : Type} (P : Socket → Bytes → Prop) (c : Code α) : Prop :=
  Mild Tunnel.keptUser Tunnel.read P c

/-- One that leaves what is to be built alone, too. -/
abbrev Modest {α : Type} (P : Socket → Bytes → Prop) (c : Code α) : Prop :=
  Mild (fun t => (t.keptUser, t.builds)) Tunnel.read P c

theorem Modest.spoken {α : Type} {P : Socket → Bytes → Prop} {c : Code α} (h : Modest P c) : Spoken P c :=
  h.mono Prod.fst (fun _ _ => id)

theorem heard_serverSock {bs : Bytes} (h : IsPacket serverSock bs) : Heard serverSock bs := ⟨h, rfl⟩

theorem walked_serverSock {bs : Bytes} (h : IsPacket serverSock bs) : Walked serverSock bs :=
  ⟨h, fun hs => absurd hs (by decide)⟩

theorem Heard.told {s : Socket} {bs : Bytes} (h : Heard s bs) : Told s bs :=
  ⟨h.1, fun hs => absurd (h.2.symm.trans hs) (by decide)⟩

theorem Told.calm {s : Socket} {bs : Bytes} (h : Told s bs) : Calm s bs := by
  refine ⟨h.1, fun hs => ?_⟩
  obtain ⟨n, rfl⟩ := h.2 hs
  exact fun hhead => absurd (Option.some.inj hhead) (by decide)

/-! ## The packets the tunnel makes up -/

section Packets

variable {κ : Type} {kept : Tunnel → κ} {P : Socket → Bytes → Prop}
  (hP : ∀ bs, IsPacket serverSock bs → P serverSock bs)
include hP

theorem spoken_tunnelMsg (msg : Bytes) : Mild kept Tunnel.read P (tunnelMsg msg) :=
  Mild.packet (hP _ (isPacket_of_length (n := 65) (by simp [length_toMCString]) (by decide)))

theorem spoken_tunnelTeleport (x y z : Int16) (yaw pitch : UInt8) :
    Mild kept Tunnel.read P (tunnelTeleport x y z yaw pitch) :=
  Mild.packet (hP _ (isPacket_of_length (n := 9) (by simp) (by decide)))

theorem spoken_tunnelSetBlock (x y z : Int16) (bid : UInt8) : Mild kept Tunnel.read P (tunnelSetBlock x y z bid) :=
  Mild.packet (hP _ (isPacket_of_length (n := 7) (by simp) (by decide)))

theorem spoken_teleportTo (i : Int) : Mild kept Tunnel.read P (teleportTo i) :=
  Mild.getState_bind (fun _ => rfl) fun _ => spoken_tunnelTeleport hP _ _ _ _ _

end Packets

section Heard

variable {κ : Type} {kept : Tunnel → κ}

theorem heard_tunnelMsg (msg : Bytes) : Mild kept Tunnel.read Heard (tunnelMsg msg) :=
  spoken_tunnelMsg (fun _ => heard_serverSock) msg

theorem heard_tunnelTeleport (x y z : Int16) (yaw pitch : UInt8) :
    Mild kept Tunnel.read Heard (tunnelTeleport x y z yaw pitch) :=
  spoken_tunnelTeleport (fun _ => heard_serverSock) x y z yaw pitch

theorem heard_teleportTo (i : Int) : Mild kept Tunnel.read Heard (teleportTo i) :=
  spoken_teleportTo (fun _ => heard_serverSock) i

end Heard

theorem heard_setMode (i mode : Int) : Modest Heard (setMode i mode) :=
  Mild.update (fun _ => rfl) (fun _ => rfl)

/-- A block with the user's position going along. -/
theorem walked_setBlock {κ : Type} {kept : Tunnel → κ} (x y z : Int16) (bid : UInt8) (sendpos : Bool) :
    Mild kept Tunnel.read Walked (setBlock x y z bid sendpos) := by
  have hmove : Mild kept Tunnel.read Walked (tunnelMove (x * 32) (y * 32) (z * 32) 0 0) :=
    Mild.packet ⟨isPacket_of_length (n := 9) (by simp) (by decide),
      fun _ hhead => absurd (Option.some.inj hhead) (by decide)⟩
  refine Mild.bind (Mild.onlyIf ?_) (fun _ => Mild.packet ⟨?_, ?_⟩)
  · refine Mild.bind (spoken_tunnelSetBlock (fun _ => walked_serverSock) _ _ _ _) (fun _ => ?_)
    exact Mild.bind hmove (fun _ => spoken_tunnelTeleport (fun _ => walked_serverSock) _ _ _ _ _)
  · exact isPacket_of_length (n := 8) (by simp) (by decide)
  · exact fun _ hhead => absurd (Option.some.inj hhead) (by decide)

/-! ## Commands that take no args -/

theorem heard_cmdHide : Modest Heard cmdHide := by
  refine Mild.getState_bind (fun _ => rfl) fun t => Mild.ite ?_ ?_
  · exact Mild.bind (heard_tunnelMsg _) fun _ => Mild.update (fun _ => rfl) (fun _ => rfl)
  · exact Mild.bind (heard_tunnelMsg _) fun _ => Mild.update (fun _ => rfl) (fun _ => rfl)

theorem heard_cmdBack : Modest Heard cmdBack :=
  Mild.getState_bind (fun _ => rfl) fun _ => heard_tunnelTeleport _ _ _ _ _

/-- `ptp` is the one command that walks. -/
theorem walked_cmdPtp : Modest Walked cmdPtp := by
  refine Mild.getState_bind (fun _ => rfl) fun t => Mild.bind (Mild.forEach (fun k => ?_) _) fun _ => ?_
  · exact Mild.getState_bind (fun _ => rfl) fun _ => walked_setBlock _ _ _ _ _
  · exact Mild.getState_bind (fun _ => rfl) fun _ =>
      spoken_tunnelTeleport (fun _ => walked_serverSock) _ _ _ _ _

theorem modest_rand (env : Env) {P : Socket → Bytes → Prop} : Modest P (rand env) :=
  Mild.getState_bind (fun _ => rfl) fun _ =>
    Mild.bind (Mild.update (fun _ => rfl) (fun _ => rfl)) fun _ => Mild.pure _

theorem told_cmdRoll (env : Env) : Modest Told (cmdRoll env) := by
  refine Mild.bind (modest_rand env) fun r => Mild.packet ⟨?_, fun _ => ?_⟩
  · exact isPacket_of_length (n := 65) (by simp [length_toMCString]) (by decide)
  · exact ⟨((r % (99999 - 10000) : Nat) : Int) + 1, by simp [rollText]⟩

theorem heard_cmdGimp : Modest Heard cmdGimp := by
  refine Mild.getState_bind (fun _ => rfl) fun t => Mild.ite (heard_tunnelMsg _) (Mild.ite ?_ ?_)
  · exact Mild.bind (heard_tunnelMsg _) fun _ => Mild.update (fun _ => rfl) (fun _ => rfl)
  · exact Mild.bind (heard_tunnelMsg _) fun _ => Mild.update (fun _ => rfl) (fun _ => rfl)

theorem heard_cmdCancel : Spoken Heard cmdCancel := by
  refine Mild.getState_bind (fun _ => rfl) fun t => Mild.bind (Mild.onlyIf ?_) fun _ => ?_
  · exact Mild.bind (heard_tunnelTeleport _ _ _ _ _) fun _ => Mild.update (fun _ => rfl) (fun _ => rfl)
  · exact Mild.bind (Mild.update (fun _ => rfl) (fun _ => rfl)) fun _ => heard_tunnelMsg _

/-! ## Commands with args -/

/-- What a command does with the player it has found, if there is one. -/
theorem heard_found {o : Option Int} {some' : Int → Code Unit} {none' : Code Unit}
    (hsome : ∀ i, Modest Heard (some' i)) (hnone : Modest Heard none') :
    Modest Heard (match o with
      | some i => some' i
      | none => none') := by
  cases o with
  | none => exact hnone
  | some i => exact hsome i

theorem heard_cmdTp (arg1 : Option Bytes) : Modest Heard (cmdTp arg1) := by
  cases arg1 with
  | none => exact heard_tunnelMsg _
  | some name =>
      exact Mild.getState_bind (fun _ => rfl) fun t => heard_found heard_teleportTo (heard_tunnelMsg _)

theorem heard_cmdHelp (arg1 : Option Bytes) : Modest Heard (cmdHelp arg1) := by
  cases arg1 with
  | none => exact Mild.forEach heard_tunnelMsg _
  | some topic =>
      exact Mild.bind (Mild.onlyIf (Mild.forEach heard_tunnelMsg _)) fun _ =>
        Mild.onlyIf (Mild.forEach heard_tunnelMsg _)

theorem heard_cmdPlotmotion (env : Env) (arg1 arg2 : Option Bytes) :
    Modest Heard (cmdPlotmotion env arg1 arg2) := by
  cases arg1 with
  | none => exact heard_tunnelMsg _
  | some name =>
      cases arg2 with
      | none => exact heard_tunnelMsg _
      | some block =>
          refine Mild.ite (Mild.bind (Mild.update (fun _ => rfl) (fun _ => rfl)) fun _ => ?_)
            (heard_tunnelMsg _)
          refine Mild.getState_bind (fun _ => rfl) fun t => heard_found (fun i => ?_) (Mild.pure ())
          exact Mild.bind (heard_setMode i 2) fun _ =>
            Mild.bind (heard_teleportTo i) fun _ => heard_tunnelMsg _

theorem heard_cmdPaint (arg1 : Option Bytes) : Modest Heard (cmdPaint arg1) := by
  cases arg1 with
  | none => exact heard_tunnelMsg _
  | some block =>
      exact Mild.ite (Mild.bind (Mild.update (fun _ => rfl) (fun _ => rfl)) fun _ => heard_tunnelMsg _)
        (heard_tunnelMsg _)

theorem heard_cmdPaste (arg1 : Option Bytes) : Spoken Heard (cmdPaste arg1) := by
  cases arg1 with
  | none => exact heard_tunnelMsg _
  | some name => exact Mild.update (fun _ => rfl) (fun _ => rfl)

theorem heard_cmdCopy (arg1 : Option Bytes) : Spoken Heard (cmdCopy arg1) := by
  cases arg1 with
  | none => exact heard_tunnelMsg _
  | some name => exact Mild.update (fun _ => rfl) (fun _ => rfl)

theorem heard_cmdZ (arg1 : Option Bytes) : Spoken Heard (cmdZ arg1) := by
  refine Mild.bind ?_ fun _ => Mild.update (fun _ => rfl) (fun _ => rfl)
  cases arg1 with
  | none => exact Mild.bind (heard_tunnelMsg _) fun _ => Mild.update (fun _ => rfl) (fun _ => rfl)
  | some block =>
      exact Mild.ite (Mild.bind (Mild.update (fun _ => rfl) (fun _ => rfl)) fun _ => heard_tunnelMsg _)
        (heard_tunnelMsg _)

theorem heard_cmdZspeed (arg1 : Option Bytes) : Modest Heard (cmdZspeed arg1) := by
  cases arg1 with
  | none => exact heard_tunnelMsg _
  | some speed =>
      refine Mild.bind (Mild.ite ?_ (Mild.update (fun _ => rfl) (fun _ => rfl))) fun _ =>
        Mild.getState_bind (fun _ => rfl) fun _ => heard_tunnelMsg _
      exact Mild.bind (Mild.update (fun _ => rfl) (fun _ => rfl)) fun _ => heard_tunnelMsg _

theorem heard_cmdFind (env : Env) (arg1 : Option Bytes) : Modest Heard (cmdFind env arg1) := by
  cases arg1 with
  | none => exact heard_tunnelMsg _
  | some name =>
      exact Mild.getState_bind (fun _ => rfl) fun t => heard_found (fun _ => heard_tunnelMsg _) (heard_tunnelMsg _)

theorem heard_cmdIgnore (env : Env) (arg1 : Option Bytes) : Modest Heard (cmdIgnore env arg1) := by
  cases arg1 with
  | none => exact heard_tunnelMsg _
  | some name =>
      refine Mild.getState_bind (fun _ => rfl) fun t =>
        heard_found (fun i => Mild.ite ?_ ?_) (heard_tunnelMsg _)
      · exact Mild.bind (heard_tunnelMsg _) fun _ => Mild.update (fun _ => rfl) (fun _ => rfl)
      · exact Mild.bind (heard_tunnelMsg _) fun _ => Mild.update (fun _ => rfl) (fun _ => rfl)

theorem heard_cmdFollow (env : Env) (arg1 : Option Bytes) : Modest Heard (cmdFollow env arg1) := by
  cases arg1 with
  | none => exact heard_tunnelMsg _
  | some name =>
      refine Mild.getState_bind (fun _ => rfl) fun t => Mild.bind (Mild.forEach (fun i => ?_) _) fun _ =>
        Mild.onlyIf (heard_tunnelMsg _)
      refine Mild.getState_bind (fun _ => rfl) fun t => Mild.onlyIf ?_
      exact Mild.bind (heard_setMode i 1) fun _ => heard_teleportTo i

theorem heard_cmdSpectate (env : Env) (arg1 : Option Bytes) : Modest Heard (cmdSpectate env arg1) := by
  cases arg1 with
  | none => exact heard_tunnelMsg _
  | some name =>
      refine Mild.getState_bind (fun _ => rfl) fun t => heard_found (fun i => ?_) (Mild.pure ())
      exact Mild.bind (heard_setMode i 1) fun _ =>
        Mild.bind (Mild.update (fun _ => rfl) (fun _ => rfl)) fun _ => heard_teleportTo i

/-! ## Every command -/

/-- **Every command but `ptp` and `roll`** writes to the client only. -/
theorem heard_commandFunc (env : Env) {command : Bytes} (h : command ≠ ascii "ptp") (hroll : command ≠ ascii "roll") :
    Spoken Heard (commandFunc env command) := by
  have known : ∀ {c : Code Unit}, Spoken Heard c → Spoken Heard (do c; pure true) :=
    fun h => Mild.bind h fun _ => Mild.pure true
  unfold commandFunc
  dsimp only
  rw [if_neg h, if_neg hroll]
  refine Mild.ite (known heard_cmdHide.spoken) <| Mild.ite (known heard_cmdBack.spoken) <|
    Mild.ite (known heard_cmdGimp.spoken) <| Mild.ite (known heard_cmdCancel) <|
    Mild.ite (known (heard_cmdTp _).spoken) <| Mild.ite (known (heard_cmdHelp _).spoken) <|
    Mild.ite (known (heard_cmdPlotmotion env _ _).spoken) <| Mild.ite (known (heard_cmdPaint _).spoken) <|
    Mild.ite (known (heard_cmdPaste _)) <| Mild.ite (known (heard_cmdCopy _)) <|
    Mild.ite (known (heard_cmdZ _)) <| Mild.ite (known (heard_cmdZspeed _).spoken) <|
    Mild.ite (known (heard_cmdFind env _).spoken) <| Mild.ite (known (heard_cmdIgnore env _).spoken) <|
    Mild.ite (known (heard_cmdFollow env _).spoken) <| Mild.ite (known (heard_cmdSpectate env _).spoken) <|
    Mild.pure false

/-- `roll` has no arguments, either. -/
theorem commandFunc_roll (env : Env) : commandFunc env (ascii "roll") = (do cmdRoll env; pure true) := by
  unfold commandFunc
  rw [if_neg (by decide), if_neg (by decide), if_neg (by decide), if_pos rfl]

/-- **Every command but `ptp`** tells the server at most what was rolled. -/
theorem told_commandFunc (env : Env) {command : Bytes} (h : command ≠ ascii "ptp") :
    Spoken Told (commandFunc env command) := by
  by_cases hroll : command = ascii "roll"
  · rw [hroll, commandFunc_roll]
    exact Mild.bind (told_cmdRoll env).spoken fun _ => Mild.pure true
  · exact (heard_commandFunc env h hroll).mono id (fun _ _ => Heard.told)

/-- `ptp` has no arguments. -/
theorem commandFunc_ptp (env : Env) : commandFunc env (ascii "ptp") = (do cmdPtp; pure true) := by
  unfold commandFunc
  rw [if_neg (by decide), if_neg (by decide), if_pos rfl]

/-- **`ptp`** writes no message to the server. -/
theorem walked_commandFunc_ptp (env : Env) : Spoken Walked (commandFunc env (ascii "ptp")) := by
  rw [commandFunc_ptp]
  exact Mild.bind walked_cmdPtp.spoken fun _ => Mild.pure true

/-- **Every command** writes whole packets. -/
theorem spoken_commandFunc (env : Env) (command : Bytes) : Spoken IsPacket (commandFunc env command) := by
  by_cases h : command = ascii "ptp"
  · rw [h]
    exact (walked_commandFunc_ptp env).mono id (fun _ _ hbs => hbs.1)
  · exact (told_commandFunc env h).mono id (fun _ _ hbs => hbs.1)

/-- **Every command but the four that place** leaves alone what is to be built. -/
theorem builds_commandFunc (env : Env) {command : Bytes} (hcancel : command ≠ ascii "cancel")
    (hpaste : arg0 command ≠ some (ascii "paste")) (hcopy : arg0 command ≠ some (ascii "copy"))
    (hz : arg0 command ≠ some (ascii "z")) : (commandFunc env command).Local Tunnel.builds (fun _ _ => True) := by
  have known : ∀ {P : Socket → Bytes → Prop} {c : Code Unit}, Modest P c →
      (do c; pure true : Code Bool).Local Tunnel.builds (fun _ _ => True) :=
    fun h => Local.bind (h.isLocal.mono Prod.snd (fun _ _ _ => trivial)) fun _ => Local.pure true
  unfold commandFunc
  dsimp only
  rw [if_neg hcancel, if_neg hpaste, if_neg hcopy, if_neg hz]
  refine Local.ite (known heard_cmdHide) <| Local.ite (known heard_cmdBack) <| Local.ite (known walked_cmdPtp) <|
    Local.ite (known (told_cmdRoll env)) <| Local.ite (known heard_cmdGimp) <| Local.ite (known (heard_cmdTp _)) <|
    Local.ite (known (heard_cmdHelp _)) <| Local.ite (known (heard_cmdPlotmotion env _ _)) <|
    Local.ite (known (heard_cmdPaint _)) <| Local.ite (known (heard_cmdZspeed _)) <|
    Local.ite (known (heard_cmdFind env _)) <| Local.ite (known (heard_cmdIgnore env _)) <|
    Local.ite (known (heard_cmdFollow env _)) <| Local.ite (known (heard_cmdSpectate env _)) <| Local.pure false

/-- Everything a command promises, without the position. -/
theorem Spoken.isCommand {α : Type} {P : Socket → Bytes → Prop} {c : Code α} (h : Spoken P c)
    (hP : ∀ s bs, P s bs → IsPacket s bs) : IsCommand c := h.isLocal.mono Prod.fst hP

theorem isCommand_commandFunc (env : Env) (command : Bytes) : IsCommand (commandFunc env command) :=
  Spoken.isCommand (spoken_commandFunc env command) (fun _ _ => id)

theorem isCommand_rand (env : Env) : IsCommand (rand env) :=
  Spoken.isCommand (P := IsPacket) (modest_rand env).spoken (fun _ _ => id)

end LavaTunnel
