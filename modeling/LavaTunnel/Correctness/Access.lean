import LavaTunnel.Correctness.Position
import LavaTunnel.Correctness.Table

/-!
# `LavaTunnel.Correctness.Access` — which records are accessed

`accesses` are the indices at which a turn reads or writes `player`: those of the ids that arrive, and those that
a command searches. `confined_round` says that none is missing: a turn neither changes nor depends on a record
outside the table that is not among them. All of them lie in the table just if no id from 128 on arrives where it
is kept in a signed `char`, nobody uses `find`, and no message is gimped.
-/

namespace LavaTunnel

open Wire Wire.Prog

/-! ## The accesses -/

/-- The records a search reads: up to the first hit. -/
def searched (t : Tunnel) (is : List Int) (hit : Int → Bytes → Bool) : List Int :=
  is.takeWhile (fun i => !hit i (cstr (t.player i).username)) ++ (findPlayer t is hit).toList

/-- A search for the name in an argument, if there is one. -/
def search (t : Tunnel) (is : List Int) (name : Option Bytes) (hit : Bytes → Int → Bytes → Bool) : List Int :=
  match name with
  | none => []
  | some name => searched t is (hit name)

/-- The accesses of a command. -/
def commandAccesses (env : Env) (t : Tunnel) (command : Bytes) : List Int :=
  if command = ascii "cancel" then ids
  else if arg0 command = some (ascii "tp") then search t ids (arg1 command) fun name _ u => strstr u name
  else if arg0 command = some (ascii "plotmotion") then
    match arg2 command with
    | none => []
    | some block =>
        if getBid block ≠ 255 then search t ids (arg1 command) (sameName env) else []
  else if arg0 command = some (ascii "find") then
    search t (-1 :: ids) (arg1 command) (sameName env)
  else if arg0 command = some (ascii "ignore") then
    search t ids (arg1 command) (sameName env)
  else if arg0 command = some (ascii "follow") then
    match arg1 command with
    | none => []
    | some _ => ids
  else if arg0 command = some (ascii "spectate") then
    search t ids (arg1 command) (sameName env)
  else []

/-- A message that is replaced by a gimp text. -/
def Gimps (env : Env) (t : Tunnel) (input : Bytes) : Prop :=
  Server.isCommand env (arrivingText env input) = false ∧ t.gimped = true ∧ byte (arrivingText env input) ≠ 47 ∧
    arrivingPid (env.var 1) input = 0 ∧ t.gimpN ≠ 1

instance (env : Env) (t : Tunnel) (input : Bytes) : Decidable (Gimps env t input) :=
  inferInstanceAs (Decidable (_ ∧ _))

/-- The name id of a packet that arrives, in two bytes. -/
def arrivingName (env : Env) (input : Bytes) : Bytes := env.fill 2 ((input.drop 1).take 2)

/-- The command in a chat message that arrives. -/
def arrivingCommand (env : Env) (input : Bytes) : Bytes := (Server.cleanMessage env (arrivingText env input)).drop 1

/-- The indices at which a turn reads or writes `player`. -/
def accesses (env : Env) (t : Tunnel) (input : Bytes) : Locals → List Int
  | .main => if byte (input.take 64) = 39 then commandAccesses env t (cstr ((input.take 64).drop 1)) else []
  | .tunnelServer _ =>
      if byte input = 0x0d then
        if Server.isCommand env (arrivingText env input) = true then commandAccesses env t (arrivingCommand env input)
        else if Gimps env t input then [-1] else []
      else []
  | .mcConnect _ =>
      if byte input = 0x07 ∨ byte input = 0x08 ∨ byte input = 0x09 ∨ byte input = 0x0a ∨ byte input = 0x0b ∨
        byte input = 0x0c then [arrivingPid env input]
      else if byte input = 0x21 then [(byte ((env.var 1).fill 1 ((input.drop 1).take 1))).toInt8.toInt]
      else if byte input = 0x18 then [(byte (arrivingName env input)).toInt8.toInt]
      else []
  | .connecting => []
  | .builder _ => []

/-! ## Runs that depend on some records only -/

/-- The run neither changes nor depends on the memory outside `S`. -/
def Confined (S : Region) {α : Type} (c : Code α) (i : Bytes) (t : Tunnel) : Prop :=
  ∀ t' : Tunnel, t'.within S = t.within S → (c.run i t').state.beyond S = t'.beyond S ∧
    SameOutcome (Tunnel.within S) (c.run i t) (c.run i t') ∧ c.sent i t = c.sent i t'

section Confined

variable {S : Region} {α β : Type} {i : Bytes} {t : Tunnel}

theorem Shielded.confined {c : Code α} (h : Shielded S c) : Confined S c i t := by
  intro t' ht'
  obtain ⟨hsame, hsent⟩ := h.run_eq i ht'.symm
  exact ⟨h.run_kept i t', hsame, hsent⟩

theorem Guarded.confined {c : Code α} (h : Guarded S c) : Confined S c i t := Shielded.confined h.shielded

theorem Confined.getState_bind {f : Tunnel → Code α} (hsame : ∀ t', t'.within S = t.within S → f t' = f t)
    (h : Confined S (f t) i t) : Confined S (getState >>= f) i t := by
  intro t' ht'
  have hf : f t' = f t := hsame t' ht'
  obtain ⟨hbeyond, hsame, hsent⟩ := h t' ht'
  rw [← hf] at hbeyond
  refine ⟨hbeyond, ?_, ?_⟩
  · show SameOutcome _ ((f t).run i t) ((f t').run i t')
    rw [hf]
    exact hsame
  · show (f t).sent i t = (f t').sent i t'
    rw [hf]
    exact hsent

/-- What is read has nothing to do with this memory. -/
theorem Confined.getState_bind_of_blur {f : Tunnel → Code α} (hblur : ∀ t, f (t.within S) = f t)
    (h : Confined S (f t) i t) : Confined S (getState >>= f) i t :=
  Confined.getState_bind (fun t' ht' => by rw [← hblur t', ht', hblur t]) h

theorem Confined.bind {c : Code α} {f : α → Code β} (hc : Confined S c i t)
    (hf : ∀ a, (c.run i t).result = some a → Confined S (f a) (c.run i t).input (c.run i t).state) :
    Confined S (c >>= f) i t := by
  intro t' ht'
  obtain ⟨hbeyond, ⟨hresult, hinput, hout, hstate⟩, hsent⟩ := hc t' ht'
  rw [run_bind, run_bind, sent_bind, sent_bind]
  generalize c.run i t = o at hresult hinput hout hstate hf
  generalize c.run i t' = o' at hbeyond hresult hinput hout hstate
  unfold andThen
  rw [← hresult]
  -- the second part runs from a state that was changed inside only
  cases hres : o.result with
  | none => exact ⟨hbeyond, ⟨rfl, hinput, hout, hstate⟩, by rw [hsent]⟩
  | some a =>
      obtain ⟨hbeyond', ⟨hr, hi, ho, hs⟩, hsent'⟩ := hf a hres o'.state hstate.symm
      rw [← hinput]
      refine ⟨hbeyond'.trans hbeyond, ⟨hr, hi, ?_, hs⟩, ?_⟩
      · show o.out ++ _ = o'.out ++ _
        rw [hout, ho]
      · show c.sent i t ++ (f a).sent o.input o.state = c.sent i t' ++ (f a).sent o.input o'.state
        rw [hsent, hsent']

theorem confined_recvVarW (env : Env) {n : Nat} {f : Bytes → Code α}
    (h : Confined S (f (env.fill n (i.take n))) (i.drop n) t) : Confined S (recvVarW env n >>= f) i t := by
  intro t' ht'
  rw [run_recvVarW_bind, run_recvVarW_bind, sent_recvVarW_bind, sent_recvVarW_bind]
  exact h t' ht'

/-- A round of a dispatch loop, on the id that arrives. -/
theorem confined_recv_id (env : Env) {gone : Code α} (dispatch : UInt8 → Code α) (hgone : Guarded S gone)
    (h : Confined S (dispatch (byte i)) (i.drop 1) t) : Confined S (do
      let r ← recvW 1
      if r.1 < 1 then gone else dispatch (byte (env.fill 1 r.2))) i t := by
  cases i with
  | nil =>
      intro t' ht'
      rw [run_recvW_bind, run_recvW_bind, sent_recvW_bind, sent_recvW_bind]
      exact hgone.confined t' ht'
  | cons id rest =>
      intro t' ht'
      rw [run_recvW_bind, run_recvW_bind, sent_recvW_bind, sent_recvW_bind]
      exact h t' ht'

theorem Confined.bind_pure {c : Code α} (h : Confined S c i t) (g : α → β) :
    Confined S (do let a ← c; pure (g a)) i t := h.bind fun _ _ => Guarded.confined (Tame.pure _)

end Confined

/-! ## No access is missing -/

section Rounds

variable {S : Region} (env : Env) (hS : ∀ i, inTable i = true → S.player i = true) (hM : ∀ i, S.map i = true)
  {i : Bytes} {t : Tunnel}

/-- A search that begins below the table. -/
theorem mem_search_find (t : Tunnel) (name : Bytes) (hit : Bytes → Int → Bytes → Bool) :
    (-1 : Int) ∈ search t (-1 :: ids) (some name) hit := by
  unfold search searched findPlayer
  cases hhit : hit name (-1) (cstr (t.player (-1)).username) with
  | true => simp [hhit]
  | false => simp [hhit]

/-- `find` with a name is none of the other commands. -/
theorem commandAccesses_find {command : Bytes} (h : arg0 command = some (ascii "find")) :
    commandAccesses env t command = search t (-1 :: ids) (arg1 command) (sameName env) := by
  have hcancel : command ≠ ascii "cancel" := by
    rintro rfl
    exact absurd h (by decide)
  unfold commandAccesses
  rw [if_neg hcancel, h, if_neg (by decide), if_neg (by decide), if_pos rfl]

theorem find_accesses {command : Bytes} (h : Finds command) : (-1 : Int) ∈ commandAccesses env t command := by
  obtain ⟨hfind, hname⟩ := h
  rw [commandAccesses_find env hfind]
  obtain ⟨name, hname⟩ := Option.ne_none_iff_exists'.mp hname
  rw [hname]
  exact mem_search_find t name _

theorem confined_extAddEntity2 (h : S.player (byte ((env.var 1).fill 1 (i.take 1))).toInt8.toInt = true) :
    Confined S (Client.extAddEntity2 env) i t := by
  refine Confined.getState_bind_of_blur (fun _ => rfl) ?_
  split
  · refine confined_recvVarW _ (Guarded.confined ?_)
    refine tame_recvVarW _ fun _ _ => tame_recvVarW _ fun _ _ => tame_recvVarW _ fun _ _ =>
      tame_recvVarW _ fun _ _ => tame_recvVarW _ fun _ _ => tame_recvVarW _ fun _ _ =>
      tame_recvVarW _ fun _ _ => ?_
    exact Client.guarded_addEntity env h _ _ _
  · refine confined_recvVarW _ (Guarded.confined ?_)
    refine tame_recvVarW _ fun _ _ => tame_recvVarW _ fun _ _ => tame_recvVarW _ fun _ _ =>
      tame_recvVarW _ fun _ _ => tame_recvVarW _ fun _ _ => tame_recvVarW _ fun _ _ =>
      tame_recvVarW _ fun _ _ => ?_
    exact Tame.bind (guarded_packet _ _) fun _ => Client.guarded_addEntity env h _ _ _

theorem confined_extRemovePlayerName (h : S.player (byte (env.fill 2 (i.take 2))).toInt8.toInt = true) :
    Confined S (Client.extRemovePlayerName env) i t :=
  confined_recvVarW _ (Guarded.confined
    (Tame.bind (guarded_packet _ _) fun _ => guarded_setPlayer h fun _ _ => rfl))

include hS hM

theorem confined_mcConnect (l : McLocals) (h : ∀ j ∈ accesses env t i (.mcConnect l), S.player j = true) :
    Confined S (mcConnect env l) i t := by
  refine confined_recv_id env (fun id => Client.dispatch env id l) Client.guarded_disconnected ?_
  by_cases h21 : byte i = 0x21
  · have hmem : S.player (byte ((env.var 1).fill 1 ((i.drop 1).take 1))).toInt8.toInt = true := by
      refine h _ ?_
      simp [accesses, h21]
    rw [h21, Client.dispatch_of_mem (Client.own_mem (e := (0x21, Client.extAddEntity2 env)) (by repeat constructor))]
    exact Confined.bind_pure (confined_extAddEntity2 env hmem) _
  by_cases h18 : byte i = 0x18
  · have hmem : S.player (byte (env.fill 2 ((i.drop 1).take 2))).toInt8.toInt = true := by
      refine h _ ?_
      simp [accesses, h18, arrivingName]
    rw [h18, Client.dispatch_of_mem (Client.own_mem (e := (0x18, Client.extRemovePlayerName env))
      (by repeat constructor))]
    exact Confined.bind_pure (confined_extRemovePlayerName env hmem) _
  · exact Shielded.confined (Client.accounted_dispatch env hS hM ⟨h21, h18⟩ l).shielded

omit hS hM in
/-- With a single text the remainder by zero comes before the access. -/
theorem run_gimpMessage_one (what : UInt8) (hone : t.gimpN = 1) :
    (Server.gimpMessage env what).run i t = ⟨none, i, { t with rands := t.rands + 1 }, []⟩ ∧
      (Server.gimpMessage env what).sent i t = [] := by
  let t₁ : Tunnel := { t with rands := t.rands + 1 }
  let send := Server.sendGimp t₁ (256 * ((env.rand t.rands : Int).tmod (t₁.gimpN - 1) + 1).toNat) what
  have hrun : (Server.gimpMessage env what).run i t = (if t₁.gimpN = 1 then Prog.exit else send).run i t₁ := rfl
  have hsent : (Server.gimpMessage env what).sent i t = (if t₁.gimpN = 1 then Prog.exit else send).sent i t₁ := rfl
  have hone₁ : t₁.gimpN = 1 := hone
  rw [hrun, hsent, if_pos hone₁]
  exact ⟨rfl, rfl⟩

omit hS hM in
/-- A gimped message accesses the record below the table, unless the program ends before. -/
theorem confined_gimpMessage (what : UInt8) (h : t.gimpN ≠ 1 → S.player (-1) = true) :
    Confined S (Server.gimpMessage env what) i t := by
  by_cases hone : t.gimpN = 1
  · intro t' ht'
    have hone' : t'.gimpN = 1 := (congrArg Tunnel.gimpN ht').trans hone
    have hrands : t'.rands = t.rands :=
      show (t'.within S).rands = (t.within S).rands from congrArg Tunnel.rands ht'
    obtain ⟨hrun, hsent⟩ := run_gimpMessage_one (i := i) env what hone
    obtain ⟨hrun', hsent'⟩ := run_gimpMessage_one (i := i) env what hone'
    rw [hrun, hrun', hsent, hsent', hrands]
    exact ⟨rfl, ⟨rfl, rfl, rfl, congrArg (fun s : Tunnel => { s with rands := t.rands + 1 }) ht'.symm⟩, rfl⟩
  · exact Guarded.confined (Server.guarded_gimpMessage env (h hone) what)

omit hM in
theorem confined_said {what message : Bytes}
    (hcommand : Server.isCommand env message = true → Finds ((Server.cleanMessage env message).drop 1) →
      S.player (-1) = true)
    (hgimp : Server.isCommand env message = false → t.gimped = true → byte message ≠ 47 → byte what = 0 →
      t.gimpN ≠ 1 → S.player (-1) = true) : Confined S (Server.said env what message) i t := by
  unfold Server.said
  cases hc : Server.isCommand env message with
  | true =>
      rw [if_pos rfl]
      exact Guarded.confined (Server.guarded_chatCommand env hS (hcommand hc))
  | false =>
      rw [if_neg (by simp)]
      refine Confined.getState_bind_of_blur (fun _ => rfl) ?_
      by_cases hgimped : t.gimped = true ∧ byte message ≠ 47
      · rw [if_pos hgimped]
        by_cases hwhat : byte what = 0
        · rw [onlyIf_pos hwhat]
          exact confined_gimpMessage env _ (hgimp hc hgimped.1 hgimped.2 hwhat)
        · rw [onlyIf_neg hwhat]
          exact Guarded.confined (Tame.pure ())
      · rw [if_neg hgimped]
        exact Guarded.confined (guarded_packet _ _)

theorem confined_tunnelServer (l : ServerLocals) (h : ∀ j ∈ accesses env t i (.tunnelServer l), S.player j = true) :
    Confined S (tunnelServer env l) i t := by
  refine confined_recv_id env (fun id => Server.dispatch env id l) Tame.exit ?_
  by_cases hchat : byte i = 0x0d
  · rw [hchat, Server.dispatch_of_mem (Server.own_mem (e := (0x0d, Server.chatMessage env)) (by repeat constructor))]
    refine Confined.bind_pure (confined_recvVarW _ (confined_recvVarW _ ?_)) _
    have hdrop : (i.drop 1).drop 1 = i.drop 2 := by rw [List.drop_drop]
    have hmessage : (env.var 2).fill 64 (((i.drop 1).drop 1).take 64) = arrivingText env i := by rw [hdrop]; rfl
    rw [hmessage]
    refine confined_said env hS (fun hc hfinds => ?_) (fun hc hgimped htext hwhat hone => ?_)
    · refine h (-1) ?_
      rw [accesses, if_pos hchat, if_pos hc]
      exact find_accesses env hfinds
    · have hgimps : Gimps env t i := ⟨hc, hgimped, htext, by rw [arrivingPid, hwhat]; rfl, hone⟩
      refine h (-1) ?_
      rw [accesses, if_pos hchat, if_neg (by simp [hc]), if_pos hgimps]
      exact List.mem_singleton_self _
  · exact Shielded.confined (Server.shielded_dispatch env hM hchat l)

omit hM in
theorem confined_console (h : ∀ j ∈ accesses env t i .main, S.player j = true) : Confined S (console env) i t := by
  have hline : Confined S (consoleLine env (i.take 64)) (i.drop 64) t := by
    refine Guarded.confined (guarded_consoleLine env hS fun hquote hfinds => h (-1) ?_)
    rw [accesses, if_pos hquote]
    exact find_accesses env hfinds
  exact fun t' ht' => hline t' ht'

/-- **A turn neither changes nor depends on the other records**: none outside the table is accessed but those
    among the accesses. -/
theorem confined_round (who : ThreadId) (l : Locals) (h : ∀ j ∈ accesses env t i l, S.player j = true) :
    Confined S (round env who l) i t := by
  cases who with
  | main =>
      cases l with
      | main => exact Confined.bind_pure (confined_console env hS h) _
      | _ => exact Guarded.confined (Tame.pure _)
  | tunnelServer =>
      cases l with
      | tunnelServer l => exact Confined.bind_pure (confined_tunnelServer env hS hM l h) _
      | _ => exact Guarded.confined (Tame.pure _)
  | mcConnect =>
      cases l with
      | connecting => exact Confined.bind_pure (Guarded.confined guarded_mcLogin) _
      | mcConnect l => exact Confined.bind_pure (confined_mcConnect env hS hM l h) _
      | _ => exact Guarded.confined (Tame.pure _)
  | builder =>
      cases l with
      | builder pc => exact Confined.bind_pure (Shielded.confined (accounted_builder env hM pc).shielded) _
      | _ => exact Guarded.confined (Tame.pure _)

end Rounds

/-! ## When they lie in the table -/

section InTable

variable (env : Env) {t : Tunnel} {input : Bytes}

/-- The turn stays in the table: no `find` with a name, no gimped message, and no id from 128 on that is kept in
    a signed `char`. -/
def StaysInTable (env : Env) (t : Tunnel) (input : Bytes) : Locals → Prop
  | .main => byte (input.take 64) = 39 → ¬ Finds (cstr ((input.take 64).drop 1))
  | .tunnelServer _ => byte input = 0x0d →
      (Server.isCommand env (arrivingText env input) = true → ¬ Finds (arrivingCommand env input)) ∧
        ¬ Gimps env t input
  | .mcConnect _ =>
      (byte input = 0x21 → (byte ((env.var 1).fill 1 ((input.drop 1).take 1))).toNat < 128) ∧
        (byte input = 0x18 → (byte (arrivingName env input)).toNat < 128)
  | .connecting => True
  | .builder _ => True

theorem inTable_iff {j : Int} : inTable j = true ↔ 0 ≤ j ∧ j < 256 := by
  simp [inTable]

/-- An id in a signed `char`. -/
theorem inTable_toInt8 (b : UInt8) : inTable b.toInt8.toInt = true ↔ b.toNat < 128 := by
  have hlt : b.toNat < 256 := UInt8.toNat_lt b
  rw [inTable_iff, toInt_toInt8]
  split <;> omega

/-- An unsigned id. -/
theorem inTable_arrivingPid : inTable (arrivingPid env input) = true := by
  have hlt : (byte (env.fill 1 ((input.drop 1).take 1))).toNat < 256 := UInt8.toNat_lt _
  rw [inTable_iff, arrivingPid]
  omega

/-- The table, and all of the map. -/
def playerTable : Region := ⟨inTable, fun _ => true⟩

theorem inTable_of_ids {j : Int} (hj : j ∈ ids) : inTable j = true :=
  mem_of_ids (S := playerTable) (fun _ => id) hj

theorem search_subset {is : List Int} {name : Option Bytes} {hit : Bytes → Int → Bytes → Bool} {j : Int}
    (hj : j ∈ search t is name hit) : j ∈ is := by
  cases name with
  | none => exact absurd hj List.not_mem_nil
  | some name =>
      rcases List.mem_append.mp hj with hj | hj
      · exact (List.takeWhile_sublist _).subset hj
      · exact mem_of_findPlayer (Option.mem_toList.mp hj)

/-- **A command stays in the table** unless it is a `find` with a name. -/
theorem commandAccesses_iff (command : Bytes) :
    (∀ j ∈ commandAccesses env t command, inTable j = true) ↔ ¬ Finds command := by
  constructor
  · intro hall hfinds
    exact absurd (hall (-1) (find_accesses env hfinds)) (by decide)
  · intro hnot j hj
    -- every other search stays among the ids it walks over
    have hids : ∀ {name : Option Bytes} {hit : Bytes → Int → Bytes → Bool}, j ∈ search t ids name hit →
        inTable j = true := fun h => inTable_of_ids (search_subset h)
    by_cases hfind : arg0 command = some (ascii "find")
    · have hnone : arg1 command = none := by
        by_contra hname
        exact hnot ⟨hfind, hname⟩
      rw [commandAccesses_find env hfind, hnone] at hj
      exact absurd hj List.not_mem_nil
    · unfold commandAccesses at hj
      rw [if_neg hfind] at hj
      split_ifs at hj
      · exact inTable_of_ids hj
      · exact hids hj
      · cases harg2 : arg2 command with
        | none =>
            rw [harg2] at hj
            exact absurd hj List.not_mem_nil
        | some block =>
            rw [harg2] at hj
            dsimp only at hj
            split_ifs at hj
            · exact hids hj
            · exact absurd hj List.not_mem_nil
      · exact hids hj
      · cases harg1 : arg1 command with
        | none =>
            rw [harg1] at hj
            exact absurd hj List.not_mem_nil
        | some name =>
            rw [harg1] at hj
            exact inTable_of_ids hj
      · exact hids hj
      · exact absurd hj List.not_mem_nil

/-- **A turn stays in the table** just if none of the three happens. -/
theorem accesses_iff (l : Locals) :
    (∀ j ∈ accesses env t input l, inTable j = true) ↔ StaysInTable env t input l := by
  cases l with
  | main =>
      unfold accesses StaysInTable
      by_cases hquote : byte (input.take 64) = 39
      · rw [if_pos hquote, commandAccesses_iff]
        exact ⟨fun h _ => h, fun h => h hquote⟩
      · rw [if_neg hquote]
        exact ⟨fun _ h => absurd h hquote, fun _ j hj => absurd hj List.not_mem_nil⟩
  | tunnelServer l =>
      unfold accesses StaysInTable
      by_cases hchat : byte input = 0x0d
      · rw [if_pos hchat]
        -- a command decides by its text; what is no command can only be gimped
        by_cases hcommand : Server.isCommand env (arrivingText env input) = true
        · have hnot : ¬ Gimps env t input := fun h => absurd (h.1.symm.trans hcommand) (by decide)
          rw [if_pos hcommand, commandAccesses_iff]
          exact ⟨fun h _ => ⟨fun _ => h, hnot⟩, fun h => (h hchat).1 hcommand⟩
        · rw [if_neg hcommand]
          by_cases hgimps : Gimps env t input
          · rw [if_pos hgimps]
            refine ⟨fun h => absurd (h (-1) (List.mem_singleton_self _)) (by decide), fun h => ?_⟩
            exact absurd hgimps (h hchat).2
          · rw [if_neg hgimps]
            exact ⟨fun _ _ => ⟨fun h => absurd h hcommand, hgimps⟩, fun _ j hj => absurd hj List.not_mem_nil⟩
      · rw [if_neg hchat]
        exact ⟨fun _ h => absurd h hchat, fun _ j hj => absurd hj List.not_mem_nil⟩
  | mcConnect l =>
      unfold accesses StaysInTable
      -- these ids index with an unsigned byte, which the table covers
      by_cases hrecord : byte input = 0x07 ∨ byte input = 0x08 ∨ byte input = 0x09 ∨ byte input = 0x0a ∨
        byte input = 0x0b ∨ byte input = 0x0c
      · have h21 : byte input ≠ 0x21 := by rcases hrecord with h | h | h | h | h | h <;> rw [h] <;> decide
        have h18 : byte input ≠ 0x18 := by rcases hrecord with h | h | h | h | h | h <;> rw [h] <;> decide
        rw [if_pos hrecord, List.forall_mem_singleton]
        exact iff_of_true (inTable_arrivingPid env) ⟨fun h => absurd h h21, fun h => absurd h h18⟩
      · rw [if_neg hrecord]
        -- the two extensions index with a signed one
        by_cases h21 : byte input = 0x21
        · have h18 : byte input ≠ 0x18 := by rw [h21]; decide
          rw [if_pos h21, List.forall_mem_singleton, inTable_toInt8]
          exact ⟨fun h => ⟨fun _ => h, fun h' => absurd h' h18⟩, fun h => h.1 h21⟩
        · rw [if_neg h21]
          by_cases h18 : byte input = 0x18
          · rw [if_pos h18, List.forall_mem_singleton, inTable_toInt8]
            exact ⟨fun h => ⟨fun h' => absurd h' h21, fun _ => h⟩, fun h => h.2 h18⟩
          · rw [if_neg h18]
            exact iff_of_true (fun j hj => absurd hj List.not_mem_nil)
              ⟨fun h => absurd h h21, fun h => absurd h h18⟩
  | connecting => exact iff_of_true (fun j hj => absurd hj List.not_mem_nil) trivial
  | builder pc => exact iff_of_true (fun j hj => absurd hj List.not_mem_nil) trivial

end InTable

/-! ## Runs -/

/-- The thread has a turn: it has been started, and the program goes on. -/
def HasTurn (env : Env) (c : Turns ThreadId Tunnel Socket Locals) (i : ThreadId) : Prop :=
  c.ended = false ∧ (tunnel env).started i c.state = true

instance (env : Env) (c : Turns ThreadId Tunnel Socket Locals) (i : ThreadId) : Decidable (HasTurn env c i) :=
  inferInstanceAs (Decidable (_ ∧ _))

/-- Two runs that differ at most in the records outside the table. -/
structure SameInTable (c c' : Turns ThreadId Tunnel Socket Locals) : Prop where
  state : c'.state.within playerTable = c.state.within playerTable
  locals : c'.locals = c.locals
  sent : c'.sent = c.sent
  ended : c'.ended = c.ended

/-- A turn that stays in the table does the same in both, and leaves the other records alone. -/
theorem turn_sameInTable {env : Env} {c c' : Turns ThreadId Tunnel Socket Locals} (h : SameInTable c c')
    {i : ThreadId} {input : Bytes}
    (hstays : HasTurn env c i → StaysInTable env c.state input (c.locals i)) :
    SameInTable ((tunnel env).turn c i input) ((tunnel env).turn c' i input) ∧
      ((tunnel env).turn c' i input).state.beyond playerTable = c'.state.beyond playerTable := by
  have hlogged : c'.state.loggedIn = c.state.loggedIn :=
    show (c'.state.within playerTable).loggedIn = (c.state.within playerTable).loggedIn from
      congrArg Tunnel.loggedIn h.state
  -- what decides whose turn it is lies inside the table
  have hstarted : (tunnel env).started i c'.state = (tunnel env).started i c.state := by
    cases i with
    | main => rfl
    | tunnelServer => rfl
    | mcConnect => exact hlogged
    | builder => exact hlogged
  unfold System.turn
  rw [h.ended, hstarted, h.locals]
  by_cases hturn : HasTurn env c i
  · have hin : ∀ j ∈ accesses env c.state input (c.locals i), inTable j = true :=
      (accesses_iff env _).mpr (hstays hturn)
    obtain ⟨hbeyond, ⟨hresult, -, -, hstate⟩, hsent⟩ :=
      confined_round env (S := playerTable) (fun _ => id) (fun _ => rfl) i (c.locals i) hin c'.state h.state
    have hcond : c.ended = false ∧ (tunnel env).started i c.state = true := hturn
    rw [if_pos hcond, if_pos hcond]
    refine ⟨⟨hstate.symm, ?_, ?_, ?_⟩, hbeyond⟩
    · exact congrArg (fun r : Option Locals => Function.update c.locals i (r.getD (c.locals i))) hresult.symm
    · show c'.sent ++ _ = c.sent ++ _
      rw [h.sent]
      exact congrArg (c.sent ++ ·) hsent.symm
    · exact congrArg Option.isNone hresult.symm
  · have hcond : ¬ (c.ended = false ∧ (tunnel env).started i c.state = true) := hturn
    rw [if_neg hcond, if_neg hcond]
    exact ⟨h, rfl⟩

theorem turns_sameInTable {env : Env} {sched : List (ThreadId × Bytes)}
    {c c' : Turns ThreadId Tunnel Socket Locals} (h : SameInTable c c')
    (hstays : (tunnel env).Always
      (fun c i input => HasTurn env c i → StaysInTable env c.state input (c.locals i)) c sched) :
    SameInTable ((tunnel env).turns c sched) ((tunnel env).turns c' sched) ∧
      ((tunnel env).turns c' sched).state.beyond playerTable = c'.state.beyond playerTable := by
  induction sched generalizing c c' with
  | nil => exact ⟨h, rfl⟩
  | cons e sched ih =>
      obtain ⟨hsame, hbeyond⟩ := turn_sameInTable h hstays.1
      obtain ⟨hsame', hbeyond'⟩ := ih hsame hstays.2
      exact ⟨hsame', hbeyond'.trans hbeyond⟩

/-- **Indices of the table.** In a run, whatever arrives, every access lies in the table just if every turn stays
    in it. Then the run neither changes nor depends on what lies around the table. -/
theorem accesses_in_table_iff (env : Env) (t : Tunnel) (sched : List (ThreadId × Bytes)) :
    ((tunnel env).Always (fun c i input => HasTurn env c i →
          ∀ j ∈ accesses env c.state input (c.locals i), 0 ≤ j ∧ j < 256) (beginning t) sched ↔
        (tunnel env).Always (fun c i input => HasTurn env c i → StaysInTable env c.state input (c.locals i))
          (beginning t) sched) ∧
      ((tunnel env).Always (fun c i input => HasTurn env c i → StaysInTable env c.state input (c.locals i))
          (beginning t) sched → ∀ t' : Tunnel, t'.within playerTable = t.within playerTable →
        SameInTable ((tunnel env).turns (beginning t) sched) ((tunnel env).turns (beginning t') sched) ∧
          ((tunnel env).turns (beginning t') sched).state.beyond playerTable = t'.beyond playerTable) := by
  refine ⟨always_congr (fun c i input => imp_congr_right fun _ => ?_) _ _, fun hstays t' ht' => ?_⟩
  · rw [← accesses_iff]
    exact forall₂_congr fun j _ => inTable_iff.symm
  · exact turns_sameInTable ⟨ht', rfl, rfl, rfl⟩ hstays

/-- The client logs in, and the server adds the entity 200, which is the index -56. -/
def entityBelow : List (ThreadId × Bytes) :=
  [(.tunnelServer, 0x00 :: 7 :: List.replicate 129 32), (.mcConnect, []),
    (.mcConnect, 0x21 :: 200 :: List.replicate 136 32)]

/-- Its record lies below the table. -/
theorem entity_below_table : ¬ ∀ (env : Env) (t : Tunnel) (sched : List (ThreadId × Bytes)),
    (tunnel env).Always (fun c i input => HasTurn env c i →
      ∀ j ∈ accesses env c.state input (c.locals i), 0 ≤ j ∧ j < 256) (beginning t) sched := by
  intro hall
  have hlast := (hall {} {} entityBelow).2.2.1
  let c := (tunnel {}).turns (beginning {}) (entityBelow.take 2)
  have hturn : HasTurn {} c .mcConnect := by decide +kernel
  have haccesses : accesses {} c.state (0x21 :: 200 :: List.replicate 136 32) (c.locals .mcConnect) = [-56] := by
    decide +kernel
  have hmem : (-56 : Int) ∈ accesses {} c.state (0x21 :: 200 :: List.replicate 136 32) (c.locals .mcConnect) := by
    rw [haccesses]
    exact List.mem_singleton_self _
  exact absurd (hlast hturn (-56) hmem).1 (by decide)

end LavaTunnel
