import LavaTunnel.Correctness.Players
import LavaTunnel.Correctness.Requests
import LavaTunnel.Correctness.Handlers
import LavaTunnel.Wire.Framed

/-!
# `LavaTunnel.Correctness.Frames` — what commands and the builder touch

One more pass over the commands and the builder, for what concerns whole runs of the four threads. Three things are
said of each piece of code at once:

* what it may change: `Toggling` for a command that places nothing, `Building` for the builder;
* that it does not depend on what `Tunnel.heeded` clears: the ignore lists and flags, the ids of the players, whether
  they are valid, three texts, and the position of a hidden client. Only 'ignore' looks at one of them, and only to
  answer;
* what it writes: blocks, positions and messages (`Made`).
-/

namespace LavaTunnel

open Wire Wire.Prog

/-! ## What nobody heeds -/

/-- What is read of a player's record. -/
def Player.heeded (p : Player) : Player := { p with pid := 0, valid := false, ignore := false }

/-- The state without what only 'ignore' reads, or nobody. -/
def Tunnel.heeded (t : Tunnel) : Tunnel :=
  { t with
    motd := []
    servername := []
    tunnelUser := []
    ignores := fun _ => []
    ignoreN := 0
    user := { t.user with hx := 0, hy := 0, hz := 0, hyaw := 0, hpitch := 0 }
    player := fun i => (t.player i).heeded }

/-- A record is written in the same way whatever nobody heeds of it. -/
theorem heeded_setPlayer {f g : Player → Player} {t : Tunnel} {i : Int}
    (h : ∀ p : Player, (g p.heeded).heeded = (f p).heeded) :
    (t.heeded.setPlayer i g).heeded = (t.setPlayer i f).heeded := by
  have hplayer : ∀ j, ((t.heeded.setPlayer i g).player j).heeded = ((t.setPlayer i f).player j).heeded := by
    intro j
    unfold Tunnel.setPlayer
    by_cases hj : j = i
    · subst hj
      simp only [Function.update_self]
      exact h _
    · simp only [Function.update_of_ne hj]
      rfl
  show { t.heeded with player := fun j => ((t.heeded.setPlayer i g).player j).heeded } = _
  rw [funext hplayer]
  rfl

/-! ## The packets the tunnel makes up -/

/-- The ids of the packets the tunnel makes up: blocks, positions and messages. -/
def madeIds : Socket → List UInt8
  | serverSock => [0x06, 0x08, 0x0d]
  | tunnelSock => [0x05, 0x08, 0x0d]

/-- A packet with such an id. -/
def Made (s : Socket) (bs : Bytes) : Prop := ∃ id ∈ madeIds s, bs.head? = some id

/-- Nobody gets another mode than one in `M`. -/
def ModesIn (M : Int → Prop) (t t' : Tunnel) : Prop :=
  ∀ i, (t'.player i).mode = (t.player i).mode ∨ M (t'.player i).mode

section Modes

variable {M : Int → Prop}

theorem modesIn_refl (t : Tunnel) : ModesIn M t t := fun _ => Or.inl rfl

theorem ModesIn.trans {a b c : Tunnel} (hab : ModesIn M a b) (hbc : ModesIn M b c) : ModesIn M a c := by
  intro i
  rcases hbc i with h | h
  · rw [h]
    exact hab i
  · exact Or.inr h

theorem modesIn_setPlayer {f : Player → Player} {t : Tunnel} {i : Int}
    (hf : ∀ p : Player, (f p).mode = p.mode ∨ M (f p).mode) : ModesIn M t (t.setPlayer i f) := by
  intro j
  by_cases hj : j = i
  · rw [hj, player_setPlayer_self]
    exact hf _
  · rw [player_setPlayer_of_ne hj]
    exact Or.inl rfl

end Modes

section Packets

variable {R : Tunnel → Tunnel → Prop} {blur : Tunnel → Tunnel}

theorem made_tunnelMsg (msg : Bytes) : (tunnelMsg msg).Framed R blur Made :=
  Framed.packet ⟨0x0d, by decide, rfl⟩

theorem made_tunnelTeleport (x y z : Int16) (yaw pitch : UInt8) :
    (tunnelTeleport x y z yaw pitch).Framed R blur Made :=
  Framed.packet ⟨0x08, by decide, rfl⟩

theorem made_tunnelSetBlock (x y z : Int16) (bid : UInt8) : (tunnelSetBlock x y z bid).Framed R blur Made :=
  Framed.packet ⟨0x06, by decide, rfl⟩

theorem made_sendMessage (what : UInt8) (msg : Bytes) : (sendMessage what msg).Framed R blur Made :=
  Framed.packet ⟨0x0d, by decide, rfl⟩

theorem made_setBlock (x y z : Int16) (bid : UInt8) (sendpos : Bool) :
    (setBlock x y z bid sendpos).Framed R blur Made := by
  refine Framed.bind (Framed.onlyIf ?_) (fun _ => Framed.packet ⟨0x05, by decide, rfl⟩)
  refine Framed.bind (made_tunnelSetBlock _ _ _ _) fun _ => Framed.bind ?_ fun _ => made_tunnelTeleport _ _ _ _ _
  exact Framed.packet ⟨0x08, by decide, rfl⟩

theorem made_teleportTo (i : Int) : (teleportTo i).Framed R Tunnel.heeded Made :=
  Framed.getState_bind (fun _ => rfl) fun _ => made_tunnelTeleport _ _ _ _ _

theorem made_tell (msgs : List Bytes) : (forEach tunnelMsg msgs).Framed R blur Made :=
  Framed.forEach made_tunnelMsg msgs

end Packets

/-! ## The commands -/

/-- The state without the toggles, the paint, the speed, and the modes of the players. -/
def Tunnel.besidesToggles (t : Tunnel) : Tunnel :=
  { t with
    hide := false
    gimped := false
    paint := false
    paintBid := 0
    plotBlock := 0
    rands := 0
    cuboid := { t.cuboid with zlimit := false, zspeed := 0 }
    player := fun i => { t.player i with mode := 0, ignore := false } }

/-- What a command may change that places nothing: the toggles, and the modes to one in `M`. -/
def Toggling (M : Int → Prop) (t t' : Tunnel) : Prop := t'.besidesToggles = t.besidesToggles ∧ ModesIn M t t'

section Commands

variable {M : Int → Prop}

theorem toggling_refl (t : Tunnel) : Toggling M t t := ⟨rfl, modesIn_refl t⟩

theorem Toggling.trans {a b c : Tunnel} (hab : Toggling M a b) (hbc : Toggling M b c) : Toggling M a c :=
  ⟨hbc.1.trans hab.1, hab.2.trans hbc.2⟩

/-- A record in which only the mode and the ignore flag are changed. -/
theorem toggling_setPlayer {f : Player → Player} {t : Tunnel} {i : Int}
    (hf : ∀ p : Player, { f p with mode := 0, ignore := false } = { p with mode := 0, ignore := false })
    (hM : ∀ p : Player, (f p).mode = p.mode ∨ M (f p).mode) : Toggling M t (t.setPlayer i f) := by
  have hplayer : ∀ j, { (t.setPlayer i f).player j with mode := 0, ignore := false } =
      { t.player j with mode := 0, ignore := false } :=
    Client.kept_setPlayer (fun p => { p with mode := 0, ignore := false }) hf t i
  refine ⟨?_, modesIn_setPlayer hM⟩
  show { t.besidesToggles with player := fun j => { (t.setPlayer i f).player j with mode := 0, ignore := false } } = _
  rw [funext hplayer]
  rfl

/-- A command that places nothing. -/
abbrev Toggles (M : Int → Prop) {α : Type} (c : Code α) : Prop := c.Framed (Toggling M) Tunnel.heeded Made

/-- A toggle. -/
theorem toggles_update {f : Tunnel → Tunnel} (h : ∀ t, (f t).besidesToggles = t.besidesToggles ∧
    (f t).player = t.player) (hheed : ∀ t, (f t.heeded).heeded = (f t).heeded) : Toggles M (update f) := by
  refine Framed.update (fun t => ⟨(h t).1, fun i => Or.inl ?_⟩) hheed
  rw [(h t).2]

theorem toggles_setMode (i : Int) {mode : Int} (hM : M mode) : Toggles M (setMode i mode) :=
  Framed.update (fun _ => toggling_setPlayer (fun _ => rfl) (fun _ => Or.inr hM))
    (fun _ => heeded_setPlayer (fun _ => rfl))

theorem toggles_cmdHide : Toggles M cmdHide := by
  refine Framed.getState_bind (fun _ => rfl) fun t => Framed.ite ?_ ?_
  · exact Framed.bind (made_tunnelMsg _) fun _ => toggles_update (fun _ => ⟨rfl, rfl⟩) (fun _ => rfl)
  · exact Framed.bind (made_tunnelMsg _) fun _ => toggles_update (fun _ => ⟨rfl, rfl⟩) (fun _ => rfl)

theorem toggles_cmdBack : Toggles M cmdBack :=
  Framed.getState_bind (fun _ => rfl) fun _ => made_tunnelTeleport _ _ _ _ _

theorem toggles_cmdPtp : Toggles M cmdPtp := by
  refine Framed.getState_bind (fun _ => rfl) fun t => Framed.bind (Framed.forEach (fun k => ?_) _) fun _ => ?_
  · exact Framed.getState_bind (fun _ => rfl) fun _ => made_setBlock _ _ _ _ _
  · exact Framed.getState_bind (fun _ => rfl) fun _ => made_tunnelTeleport _ _ _ _ _

theorem toggles_rand (env : Env) : Toggles M (rand env) :=
  Framed.getState_bind (fun _ => rfl) fun _ =>
    Framed.bind (toggles_update (fun _ => ⟨rfl, rfl⟩) (fun _ => rfl)) fun _ => Framed.pure _

theorem toggles_cmdRoll (env : Env) : Toggles M (cmdRoll env) :=
  Framed.bind (toggles_rand env) fun _ => made_sendMessage _ _

theorem toggles_cmdGimp : Toggles M cmdGimp := by
  refine Framed.getState_bind (fun _ => rfl) fun t => Framed.ite (made_tunnelMsg _) (Framed.ite ?_ ?_)
  · exact Framed.bind (made_tunnelMsg _) fun _ => toggles_update (fun _ => ⟨rfl, rfl⟩) (fun _ => rfl)
  · exact Framed.bind (made_tunnelMsg _) fun _ => toggles_update (fun _ => ⟨rfl, rfl⟩) (fun _ => rfl)

/-- What a command does with the player it has found, if there is one. -/
theorem framed_found {R : Tunnel → Tunnel → Prop} {blur : Tunnel → Tunnel} {P : Socket → Bytes → Prop}
    {o : Option Int} {some' : Int → Code Unit} {none' : Code Unit} (hsome : ∀ i, (some' i).Framed R blur P)
    (hnone : none'.Framed R blur P) : Framed R blur P (match o with
      | some i => some' i
      | none => none') := by
  cases o with
  | none => exact hnone
  | some i => exact hsome i

theorem toggles_cmdTp (arg1 : Option Bytes) : Toggles M (cmdTp arg1) := by
  cases arg1 with
  | none => exact made_tunnelMsg _
  | some name =>
      exact Framed.getState_bind (fun _ => rfl) fun t => framed_found made_teleportTo (made_tunnelMsg _)

theorem toggles_cmdHelp (arg1 : Option Bytes) : Toggles M (cmdHelp arg1) := by
  cases arg1 with
  | none => exact made_tell _
  | some topic => exact Framed.bind (Framed.onlyIf (made_tell _)) fun _ => Framed.onlyIf (made_tell _)

theorem toggles_cmdPlotmotion (env : Env) (hM : M 2) (arg1 arg2 : Option Bytes) :
    Toggles M (cmdPlotmotion env arg1 arg2) := by
  cases arg1 with
  | none => exact made_tunnelMsg _
  | some name =>
      cases arg2 with
      | none => exact made_tunnelMsg _
      | some block =>
          refine Framed.ite (Framed.bind (toggles_update (fun _ => ⟨rfl, rfl⟩) (fun _ => rfl)) fun _ => ?_)
            (made_tunnelMsg _)
          refine Framed.getState_bind (fun _ => rfl) fun t => framed_found (fun i => ?_) (Framed.pure ())
          exact Framed.bind (toggles_setMode i hM) fun _ =>
            Framed.bind (made_teleportTo i) fun _ => made_tunnelMsg _

theorem toggles_cmdPaint (arg1 : Option Bytes) : Toggles M (cmdPaint arg1) := by
  cases arg1 with
  | none => exact made_tunnelMsg _
  | some block =>
      exact Framed.ite (Framed.bind (toggles_update (fun _ => ⟨rfl, rfl⟩) (fun _ => rfl)) fun _ => made_tunnelMsg _)
        (made_tunnelMsg _)

theorem toggles_cmdZspeed (arg1 : Option Bytes) : Toggles M (cmdZspeed arg1) := by
  cases arg1 with
  | none => exact made_tunnelMsg _
  | some speed =>
      refine Framed.bind (Framed.ite ?_ (toggles_update (fun _ => ⟨rfl, rfl⟩) (fun _ => rfl))) fun _ =>
        Framed.getState_bind (fun _ => rfl) fun _ => made_tunnelMsg _
      exact Framed.bind (toggles_update (fun _ => ⟨rfl, rfl⟩) (fun _ => rfl)) fun _ => made_tunnelMsg _

theorem toggles_cmdFind (env : Env) (arg1 : Option Bytes) : Toggles M (cmdFind env arg1) := by
  cases arg1 with
  | none => exact made_tunnelMsg _
  | some name =>
      exact Framed.getState_bind (fun _ => rfl) fun t => framed_found (fun _ => made_tunnelMsg _) (made_tunnelMsg _)

/-- 'ignore' answers with what the flag was. -/
theorem toggling_cmdIgnore (env : Env) (arg1 : Option Bytes) : (cmdIgnore env arg1).Framed (Toggling M) id Made := by
  have hset : ∀ (i : Int) (b : Bool),
      (update (fun t => t.setPlayer i (fun p => { p with ignore := b })) : Code Unit).Framed (Toggling M) id Made :=
    fun _ _ => Framed.update (fun _ => toggling_setPlayer (fun _ => rfl) (fun _ => Or.inl rfl)) (fun _ => rfl)
  cases arg1 with
  | none => exact made_tunnelMsg _
  | some name =>
      refine Framed.getState_bind (fun _ => rfl) fun t =>
        framed_found (fun i => Framed.ite ?_ ?_) (made_tunnelMsg _)
      · exact Framed.bind (made_tunnelMsg _) fun _ => hset i false
      · exact Framed.bind (made_tunnelMsg _) fun _ => hset i true

theorem toggles_cmdFollow (env : Env) (hM : M 1) (arg1 : Option Bytes) : Toggles M (cmdFollow env arg1) := by
  cases arg1 with
  | none => exact made_tunnelMsg _
  | some name =>
      refine Framed.getState_bind (fun _ => rfl) fun t => Framed.bind (Framed.forEach (fun i => ?_) _) fun _ =>
        Framed.onlyIf (made_tunnelMsg _)
      refine Framed.getState_bind (fun _ => rfl) fun t => Framed.onlyIf ?_
      exact Framed.bind (toggles_setMode i hM) fun _ => made_teleportTo i

theorem toggles_cmdSpectate (env : Env) (hM : M 1) (arg1 : Option Bytes) : Toggles M (cmdSpectate env arg1) := by
  cases arg1 with
  | none => exact made_tunnelMsg _
  | some name =>
      refine Framed.getState_bind (fun _ => rfl) fun t => framed_found (fun i => ?_) (Framed.pure ())
      exact Framed.bind (toggles_setMode i hM) fun _ =>
        Framed.bind (toggles_update (fun _ => ⟨rfl, rfl⟩) (fun _ => rfl)) fun _ => made_teleportTo i

end Commands

/-! ## The commands that place, and `cancel` -/

/-- Code of which only the packets are of interest, and what it heeds. -/
abbrev Heeds {α : Type} (c : Code α) : Prop := c.Framed (fun _ _ => True) Tunnel.heeded Made

theorem Framed.heeds {R : Tunnel → Tunnel → Prop} {α : Type} {c : Code α} (h : c.Framed R Tunnel.heeded Made) :
    Heeds c := h.mono (fun _ _ _ => trivial) (fun _ _ => id)

theorem heeds_update {f : Tunnel → Tunnel} (h : ∀ t, (f t.heeded).heeded = (f t).heeded) :
    Heeds (update f : Code Unit) := Framed.update (fun _ => trivial) h

theorem heeds_cmdZ (arg1 : Option Bytes) : Heeds (cmdZ arg1) := by
  refine Framed.bind ?_ fun _ => heeds_update (fun _ => rfl)
  cases arg1 with
  | none => exact Framed.bind (made_tunnelMsg _) fun _ => heeds_update (fun _ => rfl)
  | some block =>
      exact Framed.ite (Framed.bind (heeds_update (fun _ => rfl)) fun _ => made_tunnelMsg _) (made_tunnelMsg _)

theorem heeds_cmdCopy (arg1 : Option Bytes) : Heeds (cmdCopy arg1) := by
  cases arg1 with
  | none => exact made_tunnelMsg _
  | some name => exact heeds_update (fun _ => rfl)

theorem heeds_cmdPaste (arg1 : Option Bytes) : Heeds (cmdPaste arg1) := by
  cases arg1 with
  | none => exact made_tunnelMsg _
  | some name => exact heeds_update (fun _ => rfl)

/-- The modes of all players are reset, whatever else is in their records. -/
theorem heeded_cancelled (t : Tunnel) : (cancelled t.heeded).heeded = (cancelled t).heeded := by
  have hplayer : ∀ i, ((cancelled t.heeded).player i).heeded = ((cancelled t).player i).heeded := by
    intro i
    unfold cancelled
    by_cases hi : 0 ≤ i ∧ i < 256
    · simp only [if_pos hi]
      rfl
    · simp only [if_neg hi]
      rfl
  show { (cancelled t).heeded with player := fun i => ((cancelled t.heeded).player i).heeded } = _
  rw [funext hplayer]
  rfl

theorem heeds_cmdCancel : Heeds cmdCancel := by
  refine Framed.getState_bind (fun _ => rfl) fun t => Framed.bind (Framed.onlyIf ?_) fun _ => ?_
  · exact Framed.bind (made_tunnelTeleport _ _ _ _ _) fun _ => heeds_update (fun _ => rfl)
  · exact Framed.bind (heeds_update heeded_cancelled) fun _ => made_tunnelMsg _

/-! ## Every command -/

/-- The commands that place, and the one that takes them back. -/
def Places (command : Bytes) : Prop :=
  command = ascii "cancel" ∨ arg0 command = some (ascii "paste") ∨ arg0 command = some (ascii "copy") ∨
    arg0 command = some (ascii "z")

instance (command : Bytes) : Decidable (Places command) := inferInstanceAs (Decidable (_ ∨ _))

/-- **A command that places nothing** changes toggles, and gives modes. -/
theorem toggling_commandFunc (env : Env) {M : Int → Prop} (hfollow : M 1) {command : Bytes}
    (hplot : arg0 command = some (ascii "plotmotion") → M 2) (h : ¬ Places command) :
    (commandFunc env command).Framed (Toggling M) id Made := by
  have known : ∀ {c : Code Unit}, c.Framed (Toggling M) id Made →
      (do c; pure true : Code Bool).Framed (Toggling M) id Made :=
    fun h => Framed.bind h fun _ => Framed.pure true
  simp only [Places, not_or] at h
  by_cases hp : arg0 command = some (ascii "plotmotion")
  · rw [commandFunc_of_mem (c := cmdPlotmotion env (arg1 command) (arg2 command)) (by simp [argCommands]) hp]
    exact known (toggles_cmdPlotmotion env (hplot hp) _ _).unblur
  unfold commandFunc
  dsimp only
  rw [if_neg h.1, if_neg h.2.1, if_neg h.2.2.1, if_neg h.2.2.2, if_neg hp]
  refine Framed.ite (known toggles_cmdHide.unblur) <| Framed.ite (known toggles_cmdBack.unblur) <|
    Framed.ite (known toggles_cmdPtp.unblur) <| Framed.ite (known (toggles_cmdRoll env).unblur) <|
    Framed.ite (known toggles_cmdGimp.unblur) <| Framed.ite (known (toggles_cmdTp _).unblur) <|
    Framed.ite (known (toggles_cmdHelp _).unblur) <| Framed.ite (known (toggles_cmdPaint _).unblur) <|
    Framed.ite (known (toggles_cmdZspeed _).unblur) <| Framed.ite (known (toggles_cmdFind env _).unblur) <|
    Framed.ite (known (toggling_cmdIgnore env _)) <| Framed.ite (known (toggles_cmdFollow env hfollow _).unblur) <|
    Framed.ite (known (toggles_cmdSpectate env hfollow _).unblur) <| Framed.pure false

/-- **Every command but 'ignore'** does the same whatever nobody heeds. -/
theorem heeds_commandFunc (env : Env) {command : Bytes} (h : arg0 command ≠ some (ascii "ignore")) :
    Heeds (commandFunc env command) := by
  have known : ∀ {c : Code Unit}, Heeds c → Heeds (do c; pure true : Code Bool) :=
    fun h => Framed.bind h fun _ => Framed.pure true
  have toggles : ∀ {c : Code Unit}, Toggles (fun _ => True) c → Heeds (do c; pure true : Code Bool) :=
    fun h => known (Framed.heeds h)
  unfold commandFunc
  dsimp only
  rw [if_neg h]
  refine Framed.ite (toggles toggles_cmdHide) <| Framed.ite (toggles toggles_cmdBack) <|
    Framed.ite (toggles toggles_cmdPtp) <| Framed.ite (toggles (toggles_cmdRoll env)) <|
    Framed.ite (toggles toggles_cmdGimp) <| Framed.ite (known heeds_cmdCancel) <|
    Framed.ite (toggles (toggles_cmdTp _)) <| Framed.ite (toggles (toggles_cmdHelp _)) <|
    Framed.ite (toggles (toggles_cmdPlotmotion env trivial _ _)) <| Framed.ite (toggles (toggles_cmdPaint _)) <|
    Framed.ite (known (heeds_cmdPaste _)) <| Framed.ite (known (heeds_cmdCopy _)) <|
    Framed.ite (known (heeds_cmdZ _)) <| Framed.ite (toggles (toggles_cmdZspeed _)) <|
    Framed.ite (toggles (toggles_cmdFind env _)) <| Framed.ite (toggles (toggles_cmdFollow env trivial _)) <|
    Framed.ite (toggles (toggles_cmdSpectate env trivial _)) <| Framed.pure false

/-- **Every command** writes blocks, positions and messages. -/
theorem made_commandFunc (env : Env) (command : Bytes) :
    (commandFunc env command).Framed (fun _ _ => True) id Made := by
  by_cases h : arg0 command = some (ascii "ignore")
  · rw [commandFunc_of_mem (c := cmdIgnore env (arg1 command)) (by simp [argCommands]) h]
    exact Framed.bind ((toggling_cmdIgnore (M := fun _ => True) env _).mono (fun _ _ _ => trivial) (fun _ _ => id))
      fun _ => Framed.pure true
  · exact (heeds_commandFunc env h).unblur

/-! ## The builder -/

/-- The state without what the builder changes: the hiding, the files, the corners and what is to be built. -/
def Tunnel.besidesBuilder (t : Tunnel) : Tunnel :=
  { t with
    hide := false
    files := fun _ => none
    paste := { t.paste with x := 0, y := 0, z := 0, start := false }
    copy := { t.copy with x1 := 0, y1 := 0, z1 := 0, x2 := 0, y2 := 0, z2 := 0, size := 0, start := false }
    cuboid := { t.cuboid with x1 := 0, y1 := 0, z1 := 0, x2 := 0, y2 := 0, z2 := 0, start := false } }

/-- What the builder may change: it finishes what it is asked to build, and asks for nothing. -/
structure Builds (t t' : Tunnel) : Prop where
  besides : t'.besidesBuilder = t.besidesBuilder
  paste : t'.paste.start = true → t.paste.start = true
  copy : t'.copy.start = true → t.copy.start = true
  cuboid : t'.cuboid.start = true → t.cuboid.start = true
  files : ∀ name, t'.files name = t.files name ∨ name = cstr t.copy.chunkName

theorem builds_refl (t : Tunnel) : Builds t t := ⟨rfl, id, id, id, fun _ => Or.inl rfl⟩

theorem Builds.chunkName {t t' : Tunnel} (h : Builds t t') : t'.copy.chunkName = t.copy.chunkName := by
  have hcopy : t'.besidesBuilder.copy.chunkName = t.besidesBuilder.copy.chunkName := by rw [h.besides]
  exact hcopy

theorem Builds.trans {a b c : Tunnel} (hab : Builds a b) (hbc : Builds b c) : Builds a c where
  besides := hbc.besides.trans hab.besides
  paste := hab.paste ∘ hbc.paste
  copy := hab.copy ∘ hbc.copy
  cuboid := hab.cuboid ∘ hbc.cuboid
  files name := by
    rcases hbc.files name with h | h
    · rw [h]
      exact hab.files name
    · exact Or.inr (h.trans (congrArg cstr hab.chunkName))

/-- What an update of the builder is like: it builds, and it does not depend on what nobody heeds. -/
def IsBuilding (f : Tunnel → Tunnel) : Prop := ∀ t, Builds t (f t) ∧ (f t.heeded).heeded = (f t).heeded

/-- Where nothing is written and nothing is asked for. -/
theorem isBuilding_of_files {f : Tunnel → Tunnel} (hbesides : ∀ t, (f t).besidesBuilder = t.besidesBuilder)
    (hpaste : ∀ t, (f t).paste.start = true → t.paste.start = true)
    (hcopy : ∀ t, (f t).copy.start = true → t.copy.start = true)
    (hcuboid : ∀ t, (f t).cuboid.start = true → t.cuboid.start = true) (hfiles : ∀ t, (f t).files = t.files)
    (hheed : ∀ t, (f t.heeded).heeded = (f t).heeded) : IsBuilding f :=
  fun t => ⟨⟨hbesides t, hpaste t, hcopy t, hcuboid t, fun name => Or.inl (congrFun (hfiles t) name)⟩, hheed t⟩

/-- The chunk is written under its name. -/
theorem isBuilding_copyFinish (env : Env) (copyBuf : Bytes) : IsBuilding (copyFinish env copyBuf).update := by
  refine fun t => ⟨⟨rfl, id, fun h => absurd h (by simp [copyFinish]), id, fun name => ?_⟩, rfl⟩
  by_cases hname : name = cstr t.copy.chunkName
  · exact Or.inr hname
  · exact Or.inl (Function.update_of_ne hname _ _)

theorem isBuilding_unhide (stop : Tunnel → Tunnel) (h : IsBuilding stop) (hidden : Bool) :
    IsBuilding (fun t => unhide hidden (stop t)) := by
  intro t
  obtain ⟨hbuilds, hheed⟩ := h t
  refine ⟨⟨hbuilds.besides, hbuilds.paste, hbuilds.copy, hbuilds.cuboid, hbuilds.files⟩, ?_⟩
  show unhide hidden (stop t.heeded).heeded = unhide hidden (stop t).heeded
  rw [hheed]

theorem BuilderStep.isBuilding {env : Env} {t : Tunnel} {pc next : Pc} {f : Tunnel → Tunnel}
    (h : BuilderStep env t pc next f) : IsBuilding f := by
  have hpaste : IsBuilding pasteStop := isBuilding_of_files (fun _ => rfl) (fun _ h => absurd h (by simp [pasteStop]))
    (fun _ => id) (fun _ => id) (fun _ => rfl) (fun _ => rfl)
  have hcuboid : IsBuilding cuboidStop := isBuilding_of_files (fun _ => rfl) (fun _ => id) (fun _ => id)
    (fun _ h => absurd h (by simp [cuboidStop])) (fun _ => rfl) (fun _ => rfl)
  cases h with
  | pasteHalt p l l' => exact hpaste
  | pasteEnd p l => exact isBuilding_unhide pasteStop hpaste p.hidden
  | copyFinish copyBuf => exact isBuilding_copyFinish env copyBuf
  | cuboidHalt hidden l l' => exact hcuboid
  | cuboidEnd hidden l => exact isBuilding_unhide cuboidStop hcuboid hidden
  | _ =>
      exact isBuilding_of_files (fun _ => rfl) (fun _ => id) (fun _ => id) (fun _ => id) (fun _ => rfl) (fun _ => rfl)

theorem made_perform {R : Tunnel → Tunnel → Prop} {blur : Tunnel → Tunnel} (call : BuilderCall) :
    (perform call).Framed R blur Made := by
  cases call with
  | setBlock x y z bid sendpos => exact made_setBlock x y z bid sendpos
  | tunnelMsg msg => exact made_tunnelMsg msg

/-- **A round of the builder.** -/
theorem builds_builder (env : Env) (pc : Pc) : (builder env pc).Framed Builds Tunnel.heeded Made := by
  have hheed : ∀ t : Tunnel, builderIteration env t.heeded pc = builderIteration env t pc := by
    intro t
    cases pc <;> rfl
  rw [builder_eq]
  refine Framed.getState_bind (fun t => congrArg afterwards (hheed t)) fun t => ?_
  have hbuilding := (builderStep env t pc).isBuilding
  refine Framed.bind (Framed.update (fun s => (hbuilding s).1) (fun s => (hbuilding s).2)) fun _ => ?_
  refine Framed.bind (Framed.forEach made_perform _) fun _ => ?_
  cases (builderIteration env t pc).next with
  | crashed => exact Framed.exit
  | _ => exact Framed.pure _

end LavaTunnel
