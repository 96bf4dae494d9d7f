import LavaTunnel.Correctness.Disk
import LavaTunnel.Correctness.SignIn

/-!
# `LavaTunnel.Correctness.Restarts` — what a process of the program leaves for the next one

A process is `main` up to the threads, any run of the threads, and the end of both. The next process finds its files.
Whatever the sessions in between did:

* `remembered_processes` — a process that is to use `config/info.txt` logs in with the user name, the password and the
  hash that were saved last, and asks nobody;
* `reconnected_processes` — a process that is to use `config/direct.txt` connects where the last login led, and the
  server gets the name and the `mppass` of that login;
* `led_processes` — and where the site answers as it does today, that is where the site said.
-/

namespace LavaTunnel

open Wire Wire.Prog

/-! ## Processes -/

/-- The files on the disk. -/
abbrev Files := Bytes → Option Bytes

/-- What a process meets, what the user and the network do, and whether it comes to `exit`, which writes what is still
    in a buffer. The path of the gimps fits in its 32 bytes, the three answers in 64 each, and so do the names of the
    files in the commands. -/
structure Process where
  host : Host
  settings : Settings
  answers : Answers := {}
  sched : List (ThreadId × Env × Bytes) := []
  exits : Bool := true
  gimpFolder_fits : ∀ path ∈ settings.gimp, path.length < 32
  answers_fit : ∀ s ∈ [answers.iusername, answers.ipassword, answers.ihash], s.length < 64
  chunkName_fits : NamesFit sched

/-- `main` up to the threads, in a new process. -/
def Process.begun (x : Process) (files : Files) : Outcome Tunnel Socket Bytes (Login × Option Bytes) :=
  (startUp x.host x.settings x.answers).run [] { files := files }

/-- The threads. -/
def Process.session (x : Process) (files : Files) : Turns ThreadId Tunnel Socket Locals :=
  turnsWith tunnel (beginning (x.begun files).state) x.sched

/-- The files that a process leaves. -/
def Process.leaves (x : Process) (files : Files) : Files :=
  match (x.begun files).result with
  | none => (x.begun files).state.files
  | some (_, none) => (x.session files).state.files
  | some (_, some text) =>
      if x.exits then Function.update (x.session files).state.files directTxt (some text)
      else (x.session files).state.files

/-- One process after the other. -/
def leave (files : Files) (xs : List Process) : Files := xs.foldl (fun files x => x.leaves files) files

/-! ## Words -/

/-- A field as it may be saved: not empty, nothing in it that would end it, and no longer than its buffer of 64 bytes
    holds. -/
structure IsWord (s : Bytes) : Prop where
  ne_nil : s ≠ []
  clean : Clean s
  noNul : 0 ∉ s
  fits : s.length < 64

instance (s : Bytes) : Decidable (Clean s) := inferInstanceAs (Decidable (∀ c ∈ s, isspace c = false))

section Words

variable {u p h ip user pass g : Bytes}

theorem IsWord.strlen_pos (hs : IsWord u) : ¬ strlen u < 1 := by
  unfold strlen
  rw [cstr_eq hs.noNul, Nat.lt_one_iff, List.length_eq_zero_iff]
  exact hs.ne_nil

/-- **Three lines** of `config/info.txt`. -/
theorem readInfo_lines (hu : IsWord u) (hp : IsWord p) (hh : IsWord h)
    (hg : g.takeWhile (fun c => !isspace c) = []) (l : Login) :
    readInfo (some (u ++ 10 :: (p ++ 10 :: (h ++ g)))) l = { l with username := u, password := p, hash := h } := by
  have hword : scanWord (u ++ 10 :: (p ++ 10 :: (h ++ g))) = (some u, (p ++ 10 :: (h ++ g)).dropWhile isspace) :=
    scanWord_line hu.clean hu.ne_nil _
  have hword' : scanWord ((p ++ 10 :: (h ++ g)).dropWhile isspace) = (some p, (h ++ g).dropWhile isspace) := by
    rw [scanWord_dropWhile, scanWord_line hp.clean hp.ne_nil]
  have hword'' : (scanWord ((h ++ g).dropWhile isspace)).1 = some h := by
    rw [scanWord_dropWhile, scanWord_append hh.clean hh.ne_nil, hg, List.append_nil]
  unfold readInfo
  dsimp only
  rw [hword]
  dsimp only
  rw [hword', hword'']
  dsimp only [Option.getD_some]
  rw [if_neg hu.strlen_pos, if_neg hp.strlen_pos, if_neg hh.strlen_pos]

/-- **Four lines** of `config/direct.txt`. -/
theorem readDirect_lines {n : Nat} (hip : IsWord ip) (huser : IsWord user) (hpass : IsWord pass) (hn : n ≠ 0)
    (hmax : n < 2 ^ 31) (l : Login) :
    readDirect (ip ++ 10 :: (decimal n ++ 10 :: (user ++ 10 :: pass))) l =
      { l with ipa := ip, port := n, username := user, mppass := pass, dircon := true } := by
  have hword := scanWord_line hip.clean hip.ne_nil (decimal n ++ 10 :: (user ++ 10 :: pass))
  have hnumber : scanNumber ((decimal n ++ 10 :: (user ++ 10 :: pass)).dropWhile isspace) =
      (some (n : Int), (user ++ 10 :: pass).dropWhile isspace) := by
    rw [scanNumber_dropWhile, scanNumber_decimal hmax]
  have hword' : scanWord ((user ++ 10 :: pass).dropWhile isspace) = (some user, pass.dropWhile isspace) := by
    rw [scanWord_dropWhile, scanWord_line huser.clean huser.ne_nil]
  have hword'' : (scanWord (pass.dropWhile isspace)).1 = some pass := by
    have happend := scanWord_append hpass.clean hpass.ne_nil []
    rw [scanWord_dropWhile, ← List.append_nil pass, happend]
    simp
  have hport : ¬ (n : Int) = 0 := by omega
  unfold readDirect
  dsimp only
  rw [hword]
  dsimp only
  rw [hnumber]
  dsimp only
  rw [hword', hword'']
  dsimp only [Option.getD_some]
  rw [if_neg hip.strlen_pos, if_neg hport, if_neg huser.strlen_pos, if_neg hpass.strlen_pos]

end Words

/-! ## `main` up to the threads -/

/-- There is a `gimp`. -/
def Settings.loads (settings : Settings) : Bool := settings.gimp.isSome

section Main

variable {settings : Settings} {host : Host} {answers : Answers}

/-- The settings and the lists leave the other files alone. -/
theorem run_loadConfig (h : settings.loads = true) (i : Bytes) (t : Tunnel) : ∃ t',
    (loadConfig settings).run i t = ⟨some (), i, t', []⟩ ∧ t'.copy = t.copy ∧ t'.loggedIn = t.loggedIn ∧
      ∀ name, name ≠ ignoreTxt → t'.files name = t.files name := by
  obtain ⟨gimpF, hgimp⟩ := Option.isSome_iff_exists.mp h
  have hgimps : ∀ (file : Option Bytes) (t : Tunnel), (loadGimps file t).copy = t.copy ∧
      (loadGimps file t).loggedIn = t.loggedIn ∧ (loadGimps file t).files = t.files := by
    intro file t
    cases file <;> exact ⟨rfl, rfl, rfl⟩
  have hignores : ∀ (file : Option Bytes) (t : Tunnel), (loadIgnores file t).copy = t.copy ∧
      (loadIgnores file t).loggedIn = t.loggedIn ∧ (loadIgnores file t).files = t.files := by
    intro file t
    cases file <;> exact ⟨rfl, rfl, rfl⟩
  have hcreated : ∀ t : Tunnel, (if t.files ignoreTxt = none then t.write ignoreTxt [] else t).copy = t.copy ∧
      (if t.files ignoreTxt = none then t.write ignoreTxt [] else t).loggedIn = t.loggedIn ∧
        ∀ name, name ≠ ignoreTxt →
          (if t.files ignoreTxt = none then t.write ignoreTxt [] else t).files name = t.files name := by
    intro t
    split_ifs
    · exact ⟨rfl, rfl, fun name hname => files_write_ne hname t []⟩
    · exact ⟨rfl, rfl, fun _ _ => rfl⟩
  unfold loadConfig
  rw [hgimp]
  refine ⟨_, rfl, ?_, ?_, fun name hname => ?_⟩
  · exact (hcreated _).1.trans ((hignores _ _).1.trans (hgimps _ _).1)
  · exact (hcreated _).2.1.trans ((hignores _ _).2.1.trans (hgimps _ _).2.1)
  · exact ((hcreated _).2.2 name hname).trans
      ((congrFun (hignores _ _).2.2 name).trans (congrFun (hgimps _ _).2.2 name))

theorem run_loadConfig_none (h : settings.loads = false) (i : Bytes) (t : Tunnel) :
    (loadConfig settings).run i t = ⟨none, i, t, []⟩ := by
  have hnone : settings.gimp = none := by simpa [Settings.loads] using h
  unfold loadConfig
  rw [hnone]
  rfl

/-- What the connection info says. -/
def loginFound (loginMethod : Int) (files : Files) : Option Login :=
  let l := readInfo (files infoTxt) { loginMethod := loginMethod }
  if l.loginMethod = 2 then (files directTxt).map fun file => readDirect file l else some l

theorem run_readLogin (loginMethod : Int) (i : Bytes) (t : Tunnel) :
    (readLogin loginMethod).run i t = ⟨loginFound loginMethod t.files, i, t, []⟩ := by
  unfold readLogin loginFound
  rw [run_getState_bind]
  dsimp only
  split_ifs
  · cases t.files directTxt <;> rfl
  · rfl

/-- Whether the user is asked, and wants the answers saved. -/
def Saves (answers : Answers) (l : Login) : Prop :=
  l.loginMethod = 1 ∧ answers.changed = true ∧ tolower answers.choice = 121

instance (answers : Answers) (l : Login) : Decidable (Saves answers l) := inferInstanceAs (Decidable (_ ∧ _ ∧ _))

/-- The connection info, once the user has been asked. -/
def asked (answers : Answers) (l : Login) : Login :=
  if l.loginMethod = 1 then prompt answers.iusername answers.ipassword answers.ihash l else l

/-- The state, once the user has been asked. -/
def saved (host : Host) (answers : Answers) (l : Login) (t : Tunnel) : Tunnel :=
  if Saves answers l then t.write infoTxt (saveInfo host.tinfo (asked answers l)) else t

theorem run_askLogin (l : Login) (i : Bytes) (t : Tunnel) : (askLogin host.tinfo answers l).run i t =
    ⟨some (asked answers l), i, saved host answers l t, []⟩ := by
  unfold askLogin saved asked
  by_cases hasked : l.loginMethod = 1
  · rw [if_pos hasked, if_pos hasked]
    by_cases hsaves : answers.changed = true ∧ tolower answers.choice = 121
    · have hasks : Saves answers l := ⟨hasked, hsaves⟩
      rw [if_pos hasks]
      dsimp only
      rw [onlyIf_pos hsaves]
      rfl
    · have hasks : ¬ Saves answers l := fun h => hsaves h.2
      rw [if_neg hasks]
      dsimp only
      rw [onlyIf_neg hsaves]
      rfl
  · have hasks : ¬ Saves answers l := fun h => hasked h.1
    rw [if_neg hasked, if_neg hasked, if_neg hasks]
    rfl

/-- How `main` gets on with the connection info. -/
theorem begun_eq (x : Process) (hloads : x.settings.loads = true) (files : Files) : ∃ t,
    (x.begun files = match loginFound (x.settings.loginMethod.getD 0) t.files with
      | none => ⟨none, [], t, []⟩
      | some l => (connect x.host (asked x.answers l)).run [] (saved x.host x.answers l t)) ∧
    t.copy = {} ∧ t.loggedIn = false ∧ ∀ name, name ≠ ignoreTxt → t.files name = files name := by
  obtain ⟨t, hrun, hcopy, hlogged, hfiles⟩ := run_loadConfig hloads [] { files := files }
  refine ⟨t, ?_, hcopy, hlogged, hfiles⟩
  unfold Process.begun startUp
  rw [run_bind_of hrun, Outcome.after_nil, run_bind, run_readLogin]
  cases loginFound (x.settings.loginMethod.getD 0) t.files with
  | none => rfl
  | some l =>
      show ((askLogin x.host.tinfo x.answers l >>= fun l => connect x.host l).run ([] : Bytes) t).after [] = _
      rw [run_bind_of (run_askLogin l [] t)]
      rfl

/-- A process that does not get that far. -/
theorem begun_none (x : Process) (hloads : x.settings.loads = false) (files : Files) :
    x.begun files = ⟨none, [], { files := files }, []⟩ := by
  unfold Process.begun startUp
  exact run_bind_none (run_loadConfig_none hloads [] _) _

theorem run_connect_direct {l : Login} (h : l.dircon = true) (i : Bytes) (t : Tunnel) : (connect host l).run i t =
    ⟨some (l, none), i, { t with username := l.username, mppass := l.mppass }, []⟩ := by
  unfold connect
  rw [if_pos h]
  rfl

theorem run_connect_web {l : Login} (h : l.dircon = false) (i : Bytes) (t : Tunnel) : (connect host l).run i t =
    match host.logIn l with
    | none => ⟨none, i, t, []⟩
    | some l => ⟨some (l, some (writeDirect host.direct l)), i,
        { t with username := l.username, mppass := l.mppass }.write directTxt [], []⟩ := by
  unfold connect
  rw [if_neg (by simp [h])]
  cases host.logIn l <;> rfl

/-- `connect` may write `config/direct.txt`. -/
theorem connect_frame (host : Host) (l : Login) (i : Bytes) (t : Tunnel) :
    ((connect host l).run i t).state.copy = t.copy ∧ ((connect host l).run i t).state.loggedIn = t.loggedIn ∧
      ∀ name, name ≠ directTxt → ((connect host l).run i t).state.files name = t.files name := by
  cases hdircon : l.dircon with
  | true =>
      rw [run_connect_direct hdircon]
      exact ⟨rfl, rfl, fun _ _ => rfl⟩
  | false =>
      rw [run_connect_web hdircon]
      cases host.logIn l with
      | none => exact ⟨rfl, rfl, fun _ _ => rfl⟩
      | some l' => exact ⟨rfl, rfl, fun name hname => files_write_ne hname _ _⟩

end Main

/-! ## The threads -/

section Session

variable (x : Process) (files : Files)

/-- The threads find no copy asked for, and no client. -/
theorem begun_fresh : (x.begun files).state.copy = {} ∧ (x.begun files).state.loggedIn = false := by
  cases hloads : x.settings.loads with
  | false =>
      rw [begun_none x hloads]
      exact ⟨rfl, rfl⟩
  | true =>
      obtain ⟨t, heq, hcopy, hlogged, -⟩ := begun_eq x hloads files
      rw [heq]
      cases loginFound (x.settings.loginMethod.getD 0) t.files with
      | none => exact ⟨hcopy, hlogged⟩
      | some l =>
          have hsaved : (saved x.host x.answers l t).copy = t.copy ∧
              (saved x.host x.answers l t).loggedIn = t.loggedIn := by
            unfold saved
            split_ifs <;> exact ⟨rfl, rfl⟩
          obtain ⟨hcopy', hlogged', -⟩ := connect_frame x.host (asked x.answers l) [] (saved x.host x.answers l t)
          exact ⟨hcopy'.trans (hsaved.1.trans hcopy), hlogged'.trans (hsaved.2.trans hlogged)⟩

/-- The files of `copy` are in a directory of their own. -/
theorem chunks_of_mem {sched : List (ThreadId × Env × Bytes)} {name : Bytes} (h : name ∈ copyNames sched) :
    ∃ rest, name = ascii "chunks\\" ++ rest := by
  obtain ⟨e, -, hname⟩ := List.mem_flatMap.mp h
  obtain ⟨text, -, hcopy⟩ := Option.bind_eq_some_iff.mp (Option.mem_toList.mp hname)
  unfold copyName at hcopy
  split_ifs at hcopy
  obtain ⟨arg, -, rfl⟩ := Option.map_eq_some_iff.mp hcopy
  unfold chunkFile
  rw [List.append_assoc, cstr_append (by decide)]
  exact ⟨_, rfl⟩

/-- **A session leaves the saved info alone.** -/
theorem files_session {name : Bytes} (hname : name = infoTxt ∨ name = directTxt) :
    (x.session files).state.files name = (x.begun files).state.files name := by
  obtain ⟨hcopy, -⟩ := begun_fresh x files
  have hrun := copying_runs (congrArg Copy.place hcopy) (congrArg Copy.start hcopy) x.sched
  rcases hrun.files name with hsame | ⟨hmem, -⟩
  · exact hsame
  · obtain ⟨rest, hrest⟩ := chunks_of_mem hmem
    have hsecond : name[1]? = some 104 := by
      rw [hrest]
      rfl
    rcases hname with rfl | rfl
    · exact absurd hsecond (by decide)
    · exact absurd hsecond (by decide)

theorem leaves_info : x.leaves files infoTxt = (x.begun files).state.files infoTxt := by
  have hsession := files_session x files (Or.inl rfl)
  unfold Process.leaves
  cases (x.begun files).result with
  | none => rfl
  | some found =>
      obtain ⟨l, text⟩ := found
      cases text with
      | none => exact hsession
      | some text =>
          dsimp only
          split_ifs
          · exact (Function.update_of_ne (by decide) _ _).trans hsession
          · exact hsession

theorem leaves_direct : x.leaves files directTxt = match (x.begun files).result with
    | some (_, some text) => if x.exits then some text else (x.begun files).state.files directTxt
    | _ => (x.begun files).state.files directTxt := by
  have hsession := files_session x files (Or.inr rfl)
  unfold Process.leaves
  cases (x.begun files).result with
  | none => rfl
  | some found =>
      obtain ⟨l, text⟩ := found
      cases text with
      | none => exact hsession
      | some text =>
          dsimp only
          split_ifs
          · exact Function.update_self _ _ _
          · exact hsession

end Session

/-! ## `config/info.txt` -/

/-- The user name, the password and the hash that a start reads from `config/info.txt`. -/
def Remembers (files : Files) (info : Bytes × Bytes × Bytes) : Prop :=
  ∃ file, files infoTxt = some file ∧
    ∀ l, readInfo (some file) l = { l with username := info.1, password := info.2.1, hash := info.2.2 }

/-- Three words. -/
structure AreWords (info : Bytes × Bytes × Bytes) : Prop where
  username : IsWord info.1
  password : IsWord info.2.1
  hash : IsWord info.2.2

/-- The login with nothing but the info. -/
def Login.ofInfo (info : Bytes × Bytes × Bytes) (loginMethod : Int) : Login :=
  { username := info.1, password := info.2.1, hash := info.2.2, loginMethod := loginMethod }

/-- The info with the answers in it. -/
def Answers.over (answers : Answers) (info : Bytes × Bytes × Bytes) : Bytes × Bytes × Bytes :=
  (prompt answers.iusername answers.ipassword answers.ihash (Login.ofInfo info 1)).info

/-- Whether the process asks because it is told to, and saves. -/
def Process.saves (x : Process) : Bool :=
  x.settings.loads && decide (x.settings.loginMethod = some 1) && x.answers.changed &&
    decide (tolower x.answers.choice = 121)

/-- The info that is saved after a process. -/
def Process.remembers (x : Process) (info : Bytes × Bytes × Bytes) : Bytes × Bytes × Bytes :=
  if x.saves then x.answers.over info else info

/-- Where answers may be saved, they are words, the terminator behind `tinfo` does no harm, and none of them has come
    from `config/direct.txt`. -/
structure Process.Tidy (x : Process) : Prop where
  direct : x.settings.loginMethod = some 2 → tolower x.answers.choice ≠ 121
  words : x.saves = true → ∀ s ∈ [x.answers.iusername, x.answers.ipassword, x.answers.ihash], strlen s > 1 →
    Clean (cstr s)
  ends : x.saves = true → EndsWord (x.host.tinfo [0])

section Info

variable {x : Process} {files : Files} {info : Bytes × Bytes × Bytes}

/-- What a start makes of it. -/
theorem loginFound_of_remembers (h : Remembers files info) {loginMethod : Int} (hne : loginMethod ≠ 2) :
    loginFound loginMethod files = some (Login.ofInfo info loginMethod) := by
  obtain ⟨file, hfile, hread⟩ := h
  unfold loginFound
  dsimp only
  rw [hfile, hread]
  exact if_neg hne

/-- The answers in the info are words. -/
theorem AreWords.over (h : AreWords info) {answers : Answers}
    (hfit : ∀ s ∈ [answers.iusername, answers.ipassword, answers.ihash], s.length < 64)
    (hclean : ∀ s ∈ [answers.iusername, answers.ipassword, answers.ihash], strlen s > 1 → Clean (cstr s)) :
    AreWords (answers.over info) := by
  have hword : ∀ s ∈ [answers.iusername, answers.ipassword, answers.ihash], ∀ old, IsWord old →
      IsWord (if strlen s > 1 then cstr s else old) := by
    intro s hs old hold
    split_ifs with hlong
    · have hlen : (cstr s).length < 64 := lt_of_le_of_lt (List.takeWhile_prefix _).length_le (hfit s hs)
      refine ⟨fun hnil => ?_, hclean s hs hlong, zero_notMem_cstr s, hlen⟩
      rw [strlen, hnil] at hlong
      exact absurd hlong (by decide)
    · exact hold
  exact ⟨hword _ (by simp) _ h.username, hword _ (by simp) _ h.password, hword _ (by simp) _ h.hash⟩

/-- **What is saved is remembered.** -/
theorem remembers_saveInfo {tinfo : Bytes → Bytes} (hends : EndsWord (tinfo [0])) {l : Login} (hl : AreWords l.info)
    (hfile : files infoTxt = some (saveInfo tinfo l)) : Remembers files l.info := by
  refine ⟨_, hfile, fun l₀ => ?_⟩
  have htext : saveInfo tinfo l = l.username ++ 10 :: (l.password ++ 10 :: (l.hash ++ cstr (tinfo [0]))) := by
    have husername : cstr l.username = l.username := cstr_eq hl.username.noNul
    have hpassword : cstr l.password = l.password := cstr_eq hl.password.noNul
    have hhash : cstr l.hash = l.hash := cstr_eq hl.hash.noNul
    rw [saveInfo_eq]
    unfold infoText
    rw [husername, hpassword, hhash]
    simp
  rw [htext]
  exact readInfo_lines hl.username hl.password hl.hash (harmless_iff.mp hends) l₀

/-- The process saves what it has found together with the answers, or it does not save. -/
theorem saves_iff (h : Remembers files info) (htidy : x.Tidy) (hloads : x.settings.loads = true) {l : Login}
    (hl : loginFound (x.settings.loginMethod.getD 0) files = some l) :
    (Saves x.answers l ↔ x.saves = true) ∧ (x.saves = true → (asked x.answers l).info = x.answers.over info) := by
  have hone : x.saves = true ↔ x.settings.loginMethod = some 1 ∧ x.answers.changed = true ∧
      tolower x.answers.choice = 121 := by
    unfold Process.saves
    rw [hloads]
    simp [and_assoc]
  rw [hone]
  by_cases htwo : x.settings.loginMethod.getD 0 = 2
  · have hmethod : x.settings.loginMethod = some 2 := by
      cases hm : x.settings.loginMethod with
      | none => rw [hm] at htwo; exact absurd htwo (by decide)
      | some m => rw [hm] at htwo; exact congrArg some htwo
    have hchoice := htidy.direct hmethod
    exact ⟨⟨fun hsaves => absurd hsaves.2.2 hchoice, fun hsaves => absurd hsaves.2.2 hchoice⟩,
      fun hsaves => absurd hsaves.2.2 hchoice⟩
  · rw [loginFound_of_remembers h htwo] at hl
    obtain rfl := Option.some.inj hl
    have hmethod : x.settings.loginMethod.getD 0 = 1 ↔ x.settings.loginMethod = some 1 := by
      cases x.settings.loginMethod with
      | none => simp
      | some m => simp
    unfold Saves
    refine ⟨and_congr_left fun _ => hmethod, fun hsaves => ?_⟩
    have hasked : x.settings.loginMethod.getD 0 = 1 := hmethod.mpr hsaves.1
    unfold asked
    rw [hasked]
    rfl

/-- A process that uses `config/info.txt` saves nothing. -/
theorem tidy_of_zero (h : x.settings.loginMethod = some 0) : x.Tidy := by
  have hsaves : ¬ x.saves = true := by simp [Process.saves, h]
  exact ⟨by simp [h], fun hs => absurd hs hsaves, fun hs => absurd hs hsaves⟩

/-- **One process.** -/
theorem remembers_leaves (h : Remembers files info) (hwords : AreWords info) (htidy : x.Tidy) :
    Remembers (x.leaves files) (x.remembers info) ∧ AreWords (x.remembers info) := by
  have hkept : ∀ {files' : Files}, files' infoTxt = files infoTxt → Remembers files' info := by
    intro files' hsame
    obtain ⟨file, hfile, hread⟩ := h
    exact ⟨file, hsame.trans hfile, hread⟩
  have hinfo := leaves_info x files
  unfold Process.remembers
  cases hloads : x.settings.loads with
  | false =>
      have hsaves : x.saves = false := by
        unfold Process.saves
        rw [hloads]
        rfl
      rw [begun_none x hloads] at hinfo
      rw [if_neg (by simp [hsaves])]
      exact ⟨hkept hinfo, hwords⟩
  | true =>
      obtain ⟨t, heq, -, -, hfiles⟩ := begun_eq x hloads files
      have hfound := hfiles infoTxt (by decide)
      rw [heq] at hinfo
      cases hl : loginFound (x.settings.loginMethod.getD 0) t.files with
      | none =>
          -- to save the process would have been told to ask, and then the info is found
          have hsaves : ¬ x.saves = true := by
            intro hsaves
            have hmethod : x.settings.loginMethod = some 1 := by simp_all [Process.saves]
            rw [hmethod, loginFound_of_remembers (hkept hfound) (by decide)] at hl
            exact absurd hl (by simp)
          rw [hl] at hinfo
          rw [if_neg hsaves]
          exact ⟨hkept (hinfo.trans hfound), hwords⟩
      | some l =>
          obtain ⟨hiff, hover⟩ := saves_iff (hkept hfound) htidy hloads hl
          have hconnect := (connect_frame x.host (asked x.answers l) [] (saved x.host x.answers l t)).2.2 infoTxt
            (by decide)
          rw [hl] at hinfo
          have hsame := hinfo.trans hconnect
          unfold saved at hsame
          by_cases hsaves : x.saves = true
          · rw [if_pos (hiff.mpr hsaves)] at hsame
            have hwords' := hwords.over x.answers_fit (htidy.words hsaves)
            rw [if_pos hsaves, ← hover hsaves]
            rw [← hover hsaves] at hwords'
            exact ⟨remembers_saveInfo (htidy.ends hsaves) hwords' (hsame.trans (files_write_self _ _ _)), hwords'⟩
          · rw [if_neg fun h => hsaves (hiff.mp h)] at hsame
            rw [if_neg hsaves]
            exact ⟨hkept (hsame.trans hfound), hwords⟩

/-- **One process after the other.** -/
theorem remembers_leave (h : Remembers files info) (hwords : AreWords info) {xs : List Process}
    (htidy : ∀ x ∈ xs, x.Tidy) :
    Remembers (leave files xs) (xs.foldl (fun info x => x.remembers info) info) := by
  induction xs generalizing files info with
  | nil => exact h
  | cons x xs ih =>
      obtain ⟨hremembers, hwords'⟩ := remembers_leaves h hwords (htidy x List.mem_cons_self)
      exact ih hremembers hwords' fun y hy => htidy y (List.mem_cons_of_mem x hy)

/-- A process that uses `config/info.txt`. -/
theorem begun_of_remembers (h : Remembers files info) (hloads : x.settings.loads = true)
    (hmethod : x.settings.loginMethod = some 0) : (x.begun files).result =
      (x.host.logIn (Login.ofInfo info 0)).map fun l => (l, some (writeDirect x.host.direct l)) := by
  obtain ⟨t, heq, -, -, hfiles⟩ := begun_eq x hloads files
  obtain ⟨file, hfile, hread⟩ := h
  have hfound : loginFound 0 t.files = some (Login.ofInfo info 0) :=
    loginFound_of_remembers ⟨file, (hfiles infoTxt (by decide)).trans hfile, hread⟩ (by decide)
  rw [heq, hmethod, Option.getD_some, hfound]
  dsimp only
  have hasked : asked x.answers (Login.ofInfo info 0) = Login.ofInfo info 0 := if_neg (by simp [Login.ofInfo])
  rw [hasked, run_connect_web rfl]
  cases x.host.logIn (Login.ofInfo info 0) <;> rfl

end Info

/-- **The info is remembered.** At first there are three words of at most 63 letters in `config/info.txt`. Whatever the
    processes before did, in their sessions and elsewhere, as long as nothing but such words was saved, with a
    terminator behind `tinfo` that ends the hash, and nothing by a process that had read `config/direct.txt`: a process
    that uses `config/info.txt` logs in with the user name, the password and the hash that were saved last. It asks
    nobody. -/
theorem remembered_processes {files : Files} {info : Bytes × Bytes × Bytes} (hinfo : Remembers files info)
    (hwords : AreWords info) {xs : List Process} (htidy : ∀ x ∈ xs, x.Tidy) {y : Process}
    (hloads : y.settings.loads = true) (hmethod : y.settings.loginMethod = some 0) :
    (y.begun (leave files xs)).result =
      (y.host.logIn (Login.ofInfo (xs.foldl (fun info x => x.remembers info) info) 0)).map fun l =>
        (l, some (writeDirect y.host.direct l)) :=
  begun_of_remembers (remembers_leave hinfo hwords htidy) hloads hmethod

/-- A disk with a password in `config/info.txt`. -/
def firstDisk : Files := Function.update (fun _ => none) infoTxt (some (ascii "notch\nsalt\n0f"))

def firstInfo : Bytes × Bytes × Bytes := (ascii "notch", ascii "salt", ascii "0f")

theorem isWord_notch : IsWord (ascii "notch") :=
  ⟨by decide, by decide +kernel, by decide, by decide⟩

theorem isWord_salt : IsWord (ascii "salt") :=
  ⟨by decide, by decide +kernel, by decide, by decide⟩

theorem isWord_hash : IsWord (ascii "0f") :=
  ⟨by decide, by decide +kernel, by decide, by decide⟩

theorem areWords_firstInfo : AreWords firstInfo := ⟨isWord_notch, isWord_salt, isWord_hash⟩

theorem remembers_firstDisk : Remembers firstDisk firstInfo := by
  refine ⟨ascii "notch\nsalt\n0f", Function.update_self _ _ _, fun l => ?_⟩
  have hread := readInfo_lines isWord_notch isWord_salt isWord_hash (g := []) rfl l
  exact hread

/-- Where the gimps are, and how to log in. -/
def useMethod (loginMethod : Int) : Settings := { loginMethod := some loginMethod, gimp := some (ascii "gimps.txt") }

/-- A process in which the user has another password saved. -/
def newPassword : Process where
  host := todaysHost
  settings := useMethod 1
  answers := { ipassword := ascii "pepper", choice := 89 }
  gimpFolder_fits := by decide
  answers_fit := by decide
  chunkName_fits := fun _ he => absurd he List.not_mem_nil

/-- A process that dies with no gimps to load. -/
def noGimps : Process where
  host := todaysHost
  settings := {}
  gimpFolder_fits := by decide
  answers_fit := by decide
  chunkName_fits := fun _ he => absurd he List.not_mem_nil

/-- A process that logs in with what it finds. -/
def logsIn : Process where
  host := todaysHost
  settings := useMethod 0
  gimpFolder_fits := by decide
  answers_fit := by decide
  chunkName_fits := fun _ he => absurd he List.not_mem_nil

/-- The new password is used. -/
theorem remembered_processes_pepper : (logsIn.begun (leave firstDisk [newPassword, noGimps])).result =
    (todaysHost.logIn (Login.ofInfo (ascii "notch", ascii "pepper", ascii "0f") 0)).map fun l =>
      (l, some (writeDirect id l)) := by
  have htidy : ∀ x ∈ [newPassword, noGimps], x.Tidy := by
    intro x hx
    simp only [List.mem_cons, List.not_mem_nil, or_false] at hx
    rcases hx with rfl | rfl
    · exact ⟨by decide, fun _ => by decide +kernel, fun _ c hc => absurd hc (by simp [newPassword, todaysHost, cstr])⟩
    · exact ⟨by decide, fun h => absurd h (by decide), fun h => absurd h (by decide)⟩
  exact remembered_processes remembers_firstDisk areWords_firstInfo htidy rfl rfl

/-! ## `config/direct.txt` -/

/-- A login whose fields are words, and fit in `direct`. -/
structure Login.Reachable (l : Login) : Prop where
  ipa : IsWord (cstr l.ipa)
  port_pos : 0 < l.port
  port_lt : l.port < 2 ^ 31
  username : IsWord (cstr l.username)
  mppass : IsWord (cstr l.mppass)
  fits : (directText l).length ≤ 69

/-- The login that a start makes of `config/direct.txt`. -/
def Login.again (l : Login) (info : Bytes × Bytes × Bytes) : Login :=
  { Login.ofInfo info 2 with
    ipa := cstr l.ipa, port := l.port, username := cstr l.username, mppass := cstr l.mppass, dircon := true }

/-- The files say where the login led, and more. -/
structure Leads (files : Files) (info : Bytes × Bytes × Bytes) (l : Login) : Prop where
  remembers : Remembers files info
  direct : files directTxt = some (directText l)

section Direct

variable {x : Process} {files : Files} {info : Bytes × Bytes × Bytes} {l : Login}

theorem loginFound_of_leads (h : Leads files info l) (hl : l.Reachable) :
    loginFound 2 files = some (l.again info) := by
  obtain ⟨⟨file, hfile, hread⟩, hdirect⟩ := h
  obtain ⟨n, hn⟩ := Int.eq_ofNat_of_zero_le hl.port_pos.le
  have hpos := hl.port_pos
  have hlt := hl.port_lt
  have htext : directText l = cstr l.ipa ++ 10 :: (decimal n ++ 10 :: (cstr l.username ++ 10 :: cstr l.mppass)) := by
    unfold directText
    rw [hn]
    simp
  unfold loginFound
  dsimp only
  rw [hfile, hread, hdirect, if_pos rfl, Option.map_some, htext,
    readDirect_lines hl.ipa hl.username hl.mppass (by omega) (by omega)]
  unfold Login.again Login.ofInfo
  rw [hn]

/-- **A process that uses `config/direct.txt`.** -/
theorem begun_of_leads (h : Leads files info l) (hl : l.Reachable) (hloads : x.settings.loads = true)
    (hmethod : x.settings.loginMethod = some 2) : (x.begun files).result = some (l.again info, none) ∧
      (x.begun files).state.username = cstr l.username ∧ (x.begun files).state.mppass = cstr l.mppass ∧
        ∀ name, name ≠ ignoreTxt → (x.begun files).state.files name = files name := by
  obtain ⟨t, heq, -, -, hfiles⟩ := begun_eq x hloads files
  obtain ⟨⟨file, hfile, hread⟩, hdirect⟩ := h
  have hfound : loginFound 2 t.files = some (l.again info) :=
    loginFound_of_leads ⟨⟨file, (hfiles infoTxt (by decide)).trans hfile, hread⟩,
      (hfiles directTxt (by decide)).trans hdirect⟩ hl
  have hasked : asked x.answers (l.again info) = l.again info := if_neg (by simp [Login.again, Login.ofInfo])
  have hsaved : saved x.host x.answers (l.again info) t = t :=
    if_neg fun hsaves => absurd hsaves.1 (by simp [Login.again, Login.ofInfo])
  rw [heq, hmethod, Option.getD_some, hfound]
  dsimp only
  rw [hasked, hsaved, run_connect_direct rfl]
  exact ⟨rfl, rfl, rfl, hfiles⟩

/-- Such a process leaves the files as it has found them, but for its chunks. -/
theorem leads_leaves (h : Leads files info l) (hl : l.Reachable) (hmethod : x.settings.loginMethod = some 2) :
    Leads (x.leaves files) info l := by
  have hinfo := leaves_info x files
  have hdirect := leaves_direct x files
  have hkept : ∀ {files' : Files}, files' infoTxt = files infoTxt → files' directTxt = files directTxt →
      Leads files' info l := by
    intro files' hinfo' hdirect'
    obtain ⟨⟨file, hfile, hread⟩, htext⟩ := h
    exact ⟨⟨file, hinfo'.trans hfile, hread⟩, hdirect'.trans htext⟩
  cases hloads : x.settings.loads with
  | false =>
      rw [begun_none x hloads] at hinfo hdirect
      exact hkept hinfo hdirect
  | true =>
      obtain ⟨hresult, -, -, hfiles⟩ := begun_of_leads h hl hloads hmethod
      rw [hresult] at hdirect
      exact hkept (hinfo.trans (hfiles infoTxt (by decide))) (hdirect.trans (hfiles directTxt (by decide)))

/-- **A process that has logged in** writes where its login led. -/
theorem leads_of_begun (hinfo : Remembers files info) (hwords : AreWords info) (htidy : x.Tidy) {text : Bytes}
    (hresult : (x.begun files).result = some (l, some text)) (hl : l.Reachable) (hexits : x.exits = true) :
    Leads (x.leaves files) (x.remembers info) l := by
  refine ⟨(remembers_leaves hinfo hwords htidy).1, ?_⟩
  have htext : text = writeDirect x.host.direct l := by
    cases hloads : x.settings.loads with
    | false =>
        rw [begun_none x hloads] at hresult
        exact absurd hresult (by simp)
    | true =>
        obtain ⟨t, heq, -⟩ := begun_eq x hloads files
        rw [heq] at hresult
        cases hfound : loginFound (x.settings.loginMethod.getD 0) t.files with
        | none =>
            rw [hfound] at hresult
            exact absurd hresult (by simp)
        | some l₀ =>
            rw [hfound] at hresult
            dsimp only at hresult
            cases hdircon : (asked x.answers l₀).dircon with
            | true =>
                rw [run_connect_direct hdircon] at hresult
                exact absurd hresult (by simp)
            | false =>
                rw [run_connect_web hdircon] at hresult
                cases hlogIn : x.host.logIn (asked x.answers l₀) with
                | none =>
                    rw [hlogIn] at hresult
                    exact absurd hresult (by simp)
                | some l' =>
                    rw [hlogIn] at hresult
                    obtain ⟨rfl, htext⟩ := Prod.mk.inj (Option.some.inj hresult)
                    exact (Option.some.inj htext).symm
  rw [leaves_direct, hresult]
  dsimp only
  rw [if_pos hexits, htext, writeDirect_fits hl.port_pos.le hl.fits]

/-- **One process after the other.** -/
theorem leads_leave (h : Leads files info l) (hl : l.Reachable) {xs : List Process}
    (hmethod : ∀ x ∈ xs, x.settings.loginMethod = some 2) : Leads (leave files xs) info l := by
  induction xs generalizing files with
  | nil => exact h
  | cons x xs ih =>
      exact ih (leads_leaves h hl (hmethod x List.mem_cons_self)) fun y hy => hmethod y (List.mem_cons_of_mem x hy)

/-- The login of a session is the one that the account had at its start. -/
theorem login_session (x : Process) (files : Files) : substream tunnelSock [0x00] (x.session files).sent = [] ∨
    ∃ unused, substream tunnelSock [0x00] (x.session files).sent =
      [loginPacket ((x.begun files).state.username, (x.begun files).state.mppass, unused, true)] := by
  obtain ⟨-, hlogged⟩ := begun_fresh x files
  have hsettings : (x.session files).state.settings = (x.begun files).state.settings := settings_runs _ x.sched
  have husername : (x.session files).state.username = (x.begun files).state.username := congrArg Prod.fst hsettings
  have hmppass : (x.session files).state.mppass = (x.begun files).state.mppass :=
    congrArg (fun settings => settings.2.1) hsettings
  rcases (phases_runs hlogged x.sched).login with ⟨-, hnone⟩ | ⟨-, hin, hone⟩
  · exact Or.inl hnone
  · right
    have haccount : (x.session files).state.account = ((x.begun files).state.username, (x.begun files).state.mppass,
        (x.session files).state.account.2.2.1, true) := Prod.ext husername (Prod.ext hmppass (Prod.ext rfl hin))
    exact ⟨_, hone.trans (congrArg (fun account => [loginPacket account]) haccount)⟩

end Direct

/-- **The login is used again.** A process that has found three words in `config/info.txt`, which it keeps there as
    `Process.Tidy` says, has logged in, the fields of its login are words that fit in `direct`, and it comes to its
    `exit`. Then whatever it did and the processes after it, all of them with `config/direct.txt`: the next such process
    connects to the same address and asks nobody, and the server gets the name and the `mppass` of that login. -/
theorem reconnected_processes {files : Files} {info : Bytes × Bytes × Bytes} (hinfo : Remembers files info)
    (hwords : AreWords info) {x : Process} (htidy : x.Tidy) {l : Login} {text : Bytes}
    (hresult : (x.begun files).result = some (l, some text)) (hl : l.Reachable) (hexits : x.exits = true)
    {xs : List Process} (hmethods : ∀ x ∈ xs, x.settings.loginMethod = some 2) {y : Process}
    (hloads : y.settings.loads = true) (hmethod : y.settings.loginMethod = some 2) :
    let files' := leave files (x :: xs)
    (∃ l', (y.begun files').result = some (l', none) ∧ l'.dircon = true ∧ l'.direct = l.fields) ∧
      (substream tunnelSock [0x00] (y.session files').sent = [] ∨ ∃ unused,
        substream tunnelSock [0x00] (y.session files').sent =
          [loginPacket (cstr l.username, cstr l.mppass, unused, true)]) := by
  intro files'
  have hleads : Leads files' (x.remembers info) l :=
    leads_leave (leads_of_begun hinfo hwords htidy hresult hl hexits) hl hmethods
  obtain ⟨hagain, husername, hmppass, -⟩ := begun_of_leads hleads hl hloads hmethod
  refine ⟨⟨_, hagain, rfl, rfl⟩, ?_⟩
  rw [← husername, ← hmppass]
  exact login_session y files'

/-- What the first login finds. -/
def firstLogin : Login :=
  { Login.ofInfo firstInfo 0 with ipa := ascii "10.0.0.1", mppass := ascii "9f3c", port := 25565 }

theorem reachable_firstLogin : firstLogin.Reachable where
  ipa := ⟨by decide, by decide +kernel, by decide, by decide⟩
  port_pos := by decide
  port_lt := by decide
  username := ⟨by decide, by decide +kernel, by decide, by decide⟩
  mppass := ⟨by decide, by decide +kernel, by decide, by decide⟩
  fits := by decide

theorem begun_logsIn : (logsIn.begun firstDisk).result = some (firstLogin, some (writeDirect id firstLogin)) := by
  have hlogIn : todaysHost.logIn (Login.ofInfo firstInfo 0) = some firstLogin :=
    logIn_today (site_todaysHost _) today_listedServer (by decide) rfl rfl
  have hbegun := begun_of_remembers remembers_firstDisk (show logsIn.settings.loads = true from rfl) rfl
  rw [show logsIn.host = todaysHost from rfl, hlogIn] at hbegun
  exact hbegun

theorem tidy_logsIn : logsIn.Tidy :=
  ⟨by decide, fun h => absurd h (by decide), fun h => absurd h (by decide)⟩

/-- A process that connects where the first login led; the client comes, and a chunk is copied. -/
def connects : Process where
  host := { todaysHost with token := none }
  settings := useMethod 2
  sched := [(.main, {}, ascii "'copy hut"), (.tunnelServer, {}, 0x00 :: List.replicate 130 32), (.mcConnect, {}, [])]
  gimpFolder_fits := by decide
  answers_fit := by decide
  chunkName_fits := by
    unfold NamesFit
    decide +kernel

/-- The second such process. -/
theorem reconnected_processes_connects :
    let files' := leave firstDisk (logsIn :: [connects])
    (∃ l', (connects.begun files').result = some (l', none) ∧ l'.dircon = true ∧ l'.direct = firstLogin.fields) ∧
      (substream tunnelSock [0x00] (connects.session files').sent = [] ∨ ∃ unused,
        substream tunnelSock [0x00] (connects.session files').sent =
          [loginPacket (cstr firstLogin.username, cstr firstLogin.mppass, unused, true)]) := by
  have hmethods : ∀ x ∈ [connects], x.settings.loginMethod = some 2 := by
    intro x hx
    rw [List.mem_singleton.mp hx]
    rfl
  exact reconnected_processes remembers_firstDisk areWords_firstInfo tidy_logsIn begun_logsIn reachable_firstLogin rfl
    hmethods rfl rfl

/-- **Where the site led.** A process logs in with the three words that it finds in `config/info.txt`, the site answers
    with a server in today's order whose fields are words that fit in `direct` with the user name, and the process comes
    to its `exit`. As long as the processes after it use `config/direct.txt`, and so log in nowhere, the next one
    connects to the address and the port of that server, and it gets the name and the `mppass` that the site gave. -/
theorem led_processes {files : Files} {info : Bytes × Bytes × Bytes} (hinfo : Remembers files info)
    (hwords : AreWords info) {x : Process} (hxloads : x.settings.loads = true)
    (hxmethod : x.settings.loginMethod = some 0) (hexits : x.exits = true) {d : Document} {token : Bytes} {r : Response}
    (hsite : Site x.host (Login.ofInfo info 0) d token r) {n : Nat} (htoday : Today r n) (hn : 0 < n)
    (hmax : n < 2 ^ 31) (hip : IsWord r.ip.value.meaning) (hmppass : IsWord r.mppass.value.meaning)
    (hfits : r.ip.value.meaning.length + (decimal n).length + info.1.length + r.mppass.value.meaning.length ≤ 66)
    {xs : List Process} (hmethods : ∀ x ∈ xs, x.settings.loginMethod = some 2) {y : Process}
    (hloads : y.settings.loads = true) (hmethod : y.settings.loginMethod = some 2) :
    let files' := leave files (x :: xs)
    (∃ l', (y.begun files').result = some (l', none) ∧ l'.dircon = true ∧
        l'.direct = (r.ip.value.meaning, (n : Int), info.1, r.mppass.value.meaning)) ∧
      (substream tunnelSock [0x00] (y.session files').sent = [] ∨ ∃ unused,
        substream tunnelSock [0x00] (y.session files').sent =
          [loginPacket (info.1, r.mppass.value.meaning, unused, true)]) := by
  intro files'
  have hbegun := begun_of_remembers hinfo hxloads hxmethod
  rw [logIn_today hsite htoday hmax rfl rfl] at hbegun
  have hcip : cstr r.ip.value.meaning = r.ip.value.meaning := cstr_eq hip.noNul
  have hcname : cstr info.1 = info.1 := cstr_eq hwords.username.noNul
  have hcmppass : cstr r.mppass.value.meaning = r.mppass.value.meaning := cstr_eq hmppass.noNul
  have hreachable : Login.Reachable { Login.ofInfo info 0 with
      ipa := r.ip.value.meaning, mppass := r.mppass.value.meaning, port := n } := by
    refine ⟨hcip.symm ▸ hip, Int.natCast_pos.mpr hn, Int.ofNat_lt.mpr hmax, hcname.symm ▸ hwords.username,
      hcmppass.symm ▸ hmppass, ?_⟩
    show (cstr r.ip.value.meaning ++ 10 :: decimal n ++ 10 :: cstr info.1 ++ 10 :: cstr r.mppass.value.meaning).length ≤
      69
    rw [hcip, hcname, hcmppass]
    simp only [List.length_append, List.length_cons]
    omega
  have hleads : Leads files' (x.remembers info) _ := leads_leave
    (leads_of_begun hinfo hwords (tidy_of_zero hxmethod) hbegun hreachable hexits) hreachable hmethods
  obtain ⟨hagain, husername, hmppass', -⟩ := begun_of_leads hleads hreachable hloads hmethod
  refine ⟨⟨_, hagain, rfl, ?_⟩, ?_⟩
  · show (cstr r.ip.value.meaning, (n : Int), cstr info.1, cstr r.mppass.value.meaning) = _
    rw [hcip, hcname, hcmppass]
  · have hlogin := login_session y files'
    rw [husername, hmppass'] at hlogin
    have hfields : cstr (Login.ofInfo info 0).username = info.1 := hcname
    rw [hfields, hcmppass] at hlogin
    exact hlogin

/-- The server that is listed. -/
theorem led_processes_listed :
    let files' := leave firstDisk (logsIn :: [connects])
    (∃ l', (connects.begun files').result = some (l', none) ∧ l'.dircon = true ∧
        l'.direct = (ascii "10.0.0.1", 25565, ascii "notch", ascii "9f3c")) ∧
      (substream tunnelSock [0x00] (connects.session files').sent = [] ∨ ∃ unused,
        substream tunnelSock [0x00] (connects.session files').sent =
          [loginPacket (ascii "notch", ascii "9f3c", unused, true)]) := by
  have hmethods : ∀ x ∈ [connects], x.settings.loginMethod = some 2 := by
    intro x hx
    rw [List.mem_singleton.mp hx]
    rfl
  have hip : listedServer.ip.value.meaning = ascii "10.0.0.1" := by decide
  have hmppass : listedServer.mppass.value.meaning = ascii "9f3c" := by decide
  have hled := led_processes remembers_firstDisk areWords_firstInfo (show logsIn.settings.loads = true from rfl) rfl rfl
    (site_todaysHost _) today_listedServer (by decide) (by decide)
    (hip ▸ ⟨by decide, by decide +kernel, by decide, by decide⟩)
    (hmppass ▸ ⟨by decide, by decide +kernel, by decide, by decide⟩) (by decide) hmethods
    (show connects.settings.loads = true from rfl) rfl
  rw [hip, hmppass] at hled
  exact hled

end LavaTunnel
