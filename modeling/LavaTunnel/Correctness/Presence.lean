import LavaTunnel.Correctness.Players
import LavaTunnel.Correctness.Refusals

/-!
# `LavaTunnel.Correctness.Presence` — commands about players who are gone

A record is valid from the packet that lets its player enter to the one that lets it leave, but it keeps its name,
and no search looks at the flag. So a command may select a player who is gone, or one whose record has been cleared
by mistake; and `strEqual` may hit a name that is not meant.
-/

namespace LavaTunnel

open Wire Wire.Prog

namespace Client

/-! ## Who is there -/

/-- The packet lets the player of this record enter. -/
def Joins (i : Int) (q : Packet) : Prop :=
  q.1 = 0x07 ∧ i = (pidOf q).toNat ∨ q.1 = 0x21 ∧ i = (pidOf q).toInt8.toInt

/-- The packet clears this record. -/
def Leaves (i : Int) (q : Packet) : Prop :=
  q.1 = 0x0c ∧ i = (pidOf q).toNat ∨ q.1 = 0x18 ∧ i = (byte (field q.2 0 2)).toInt8.toInt

instance (i : Int) (q : Packet) : Decidable (Joins i q) := inferInstanceAs (Decidable (_ ∨ _))

instance (i : Int) (q : Packet) : Decidable (Leaves i q) := inferInstanceAs (Decidable (_ ∨ _))

/-- The flag of a record after a packet. -/
def flagged (i : Int) (v : Bool) (q : Packet) : Bool := if Joins i q then true else if Leaves i q then false else v

/-- The player has entered, and has not left since. -/
def Present (i : Int) (ps : List Packet) (v : Bool) : Prop :=
  (∃ earlier q later, ps = earlier ++ q :: later ∧ Joins i q ∧ ∀ s ∈ later, ¬ Leaves i s) ∨
    v = true ∧ ∀ s ∈ ps, ¬ Leaves i s

/-- **The flag says who is there.** -/
theorem foldl_flagged (i : Int) (ps : List Packet) (v : Bool) :
    ps.foldl (flagged i) v = true ↔ Present i ps v := by
  -- the first packet sets the flag, clears it, or is about somebody else
  induction ps generalizing v with
  | nil =>
      refine ⟨fun h => Or.inr ⟨h, fun s hs => absurd hs List.not_mem_nil⟩, ?_⟩
      rintro (⟨earlier, q, later, hps, -⟩ | ⟨h, -⟩)
      · exact absurd hps (by simp)
      · exact h
  | cons p ps ih =>
      rw [List.foldl_cons, ih]
      constructor
      · rintro (⟨earlier, q, later, rfl, hjoin, hlater⟩ | ⟨hflag, hps⟩)
        · exact Or.inl ⟨p :: earlier, q, later, rfl, hjoin, hlater⟩
        · unfold flagged at hflag
          split at hflag
          · next hjoin => exact Or.inl ⟨[], p, ps, rfl, hjoin, hps⟩
          · split at hflag
            · exact absurd hflag Bool.false_ne_true
            · next hleave => exact Or.inr ⟨hflag, List.forall_mem_cons.mpr ⟨hleave, hps⟩⟩
      · rintro (⟨earlier, q, later, hps, hjoin, hlater⟩ | ⟨hflag, hps⟩)
        · cases earlier with
          | nil =>
              obtain ⟨rfl, rfl⟩ := List.cons.inj hps
              exact Or.inr ⟨if_pos hjoin, hlater⟩
          | cons p' earlier =>
              obtain ⟨-, rfl⟩ := List.cons.inj hps
              exact Or.inl ⟨earlier, q, later, rfl, hjoin, hlater⟩
        · obtain ⟨hleave, hps⟩ := List.forall_mem_cons.mp hps
          refine Or.inr ⟨?_, hps⟩
          unfold flagged
          rw [if_neg hleave, hflag, ite_self]

/-! ## What a packet does to the flags -/

section Step

variable {env : Env} {q : Packet} {t : Tunnel}

theorem valid_setPlayer (t : Tunnel) (i j : Int) (f : Player → Player) :
    ((t.setPlayer j f).player i).valid = if i = j then (f (t.player j)).valid else (t.player i).valid := by
  by_cases h : i = j
  · rw [if_pos h, h, player_setPlayer_self]
  · rw [if_neg h, player_setPlayer_of_ne h]

/-- **What a packet does to the flags.** -/
theorem valid_received (env : Env) (q : Packet) (t : Tunnel) (i : Int) :
    ((received env q t).player i).valid = flagged i (t.player i).valid q := by
  obtain ⟨id, payload⟩ := q
  -- the four packets set or clear the flag of one record, and nothing else touches a flag
  by_cases h7 : id = 0x07
  · subst h7
    have hreceived : received env (0x07, payload) t = spawned env payload t := rfl
    have hjoins : Joins i (0x07, payload) ↔ i = (pidOf (0x07, payload)).toNat := by simp [Joins]
    have hleaves : ¬ Leaves i (0x07, payload) := by simp [Leaves]
    rw [hreceived, spawned, valid_setPlayer, flagged, if_neg hleaves]
    exact if_congr hjoins.symm rfl rfl
  by_cases h21 : id = 0x21
  · subst h21
    have hreceived : received env (0x21, payload) t = entityAdded env payload t := rfl
    have hjoins : Joins i (0x21, payload) ↔ i = (pidOf (0x21, payload)).toInt8.toInt := by simp [Joins]
    have hleaves : ¬ Leaves i (0x21, payload) := by simp [Leaves]
    rw [hreceived, entityAdded, addEntity, valid_setPlayer, flagged, if_neg hleaves]
    exact if_congr hjoins.symm rfl rfl
  by_cases hc : id = 0x0c
  · subst hc
    have hreceived : received env (0x0c, payload) t =
        t.setPlayer (pidOf (0x0c, payload)).toNat (fun p => { p with valid := false, mode := 0 }) := rfl
    have hjoins : ¬ Joins i (0x0c, payload) := by simp [Joins]
    have hleaves : Leaves i (0x0c, payload) ↔ i = (pidOf (0x0c, payload)).toNat := by simp [Leaves]
    rw [hreceived, valid_setPlayer, flagged, if_neg hjoins]
    exact if_congr hleaves.symm rfl rfl
  by_cases h18 : id = 0x18
  · subst h18
    have hreceived : received env (0x18, payload) t =
        t.setPlayer (byte (field payload 0 2)).toInt8.toInt (fun p => { p with valid := false }) := rfl
    have hjoins : ¬ Joins i (0x18, payload) := by simp [Joins]
    have hleaves : Leaves i (0x18, payload) ↔ i = (byte (field payload 0 2)).toInt8.toInt := by simp [Leaves]
    rw [hreceived, valid_setPlayer, flagged, if_neg hjoins]
    exact if_congr hleaves.symm rfl rfl
  have hjoins : ¬ Joins i (id, payload) := by simp [Joins, h7, h21]
  have hleaves : ¬ Leaves i (id, payload) := by simp [Leaves, hc, h18]
  rw [flagged, if_neg hjoins, if_neg hleaves]
  by_cases hid : id ∈ playerIds
  · simp only [playerIds, List.mem_cons, List.not_mem_nil, or_false, h7, h21, hc, h18, false_or] at hid
    rcases hid with rfl | rfl | rfl | rfl
    · have hreceived : received env (0x08, payload) t = positioned payload t := rfl
      rw [hreceived, positioned, placed]
      exact kept_setPlayer Player.valid (fun p => by rfl) t _ i
    · have hreceived : received env (0x09, payload) t = turned payload 4 (stepped payload t) := rfl
      rw [hreceived, turned, stepped, setPlayer_setPlayer]
      exact kept_setPlayer Player.valid (fun p => by rfl) t _ i
    · have hreceived : received env (0x0a, payload) t = stepped payload t := rfl
      rw [hreceived, stepped]
      exact kept_setPlayer Player.valid (fun p => by rfl) t _ i
    · have hreceived : received env (0x0b, payload) t = turned payload 1 t := rfl
      rw [hreceived, turned]
      exact kept_setPlayer Player.valid (fun p => by rfl) t _ i
  · exact congrArg (fun player => (player i).valid) (player_received_of_notMem (q := (id, payload)) hid)

end Step

/-- **The flags at every moment of a run** whose other threads leave them alone. -/
theorem valid_after_iff {env : Env} (r : ServerRun env)
    (hothers : ∀ f ∈ r.others, ∀ t i, ((f t).player i).valid = (t.player i).valid) {k : Nat}
    (hk : k ≤ r.packets.length) (i : Int) :
    ((r.after k).player i).valid = true ↔ Present i (r.packets.take k) (r.state.player i).valid := by
  have hview := r.view_eq_foldl (fun t => (t.player i).valid) (flagged i) (fun f hf t => hothers f hf t i)
    (fun q _ t _ => valid_received env q t i) hk
  have hafter : ((r.after k).player i).valid = _ := hview
  rw [hafter, foldl_flagged]

end Client

/-! ## What a command selects -/

section Search

variable {env : Env} {text : Bytes} {t : Tunnel} {s : Search} {i : Int}

/-- Whoever is not there is hit behind somebody who is, by a search that stops at its first hit. -/
def Search.GoneBehind (s : Search) (t : Tunnel) (there : Int → Prop) : Prop :=
  ∀ before i after, s.indices = before ++ i :: after → ¬ there i → s.Hits t i →
    s.every = false ∧ ∃ j ∈ before, there j ∧ s.Hits t j

/-- **The players that are selected are there** just if the others are hit behind one who is. -/
theorem selected_there_iff (there : Int → Prop) : (∀ i ∈ s.selected t, there i) ↔ s.GoneBehind t there := by
  unfold Search.selected Search.GoneBehind
  cases hevery : s.every with
  | true =>
      rw [if_pos rfl]
      constructor
      · intro h before i after hindices hgone hhit
        have hi : i ∈ s.indices := hindices ▸ List.mem_append_right _ List.mem_cons_self
        exact absurd (h i (List.mem_filter.mpr ⟨hi, hhit⟩)) hgone
      · intro h i hi
        obtain ⟨hindex, hhit⟩ := List.mem_filter.mp hi
        obtain ⟨before, after, hindices⟩ := List.append_of_mem hindex
        by_contra hgone
        exact absurd (h before i after hindices hgone hhit).1 (by decide)
  | false =>
      rw [if_neg Bool.false_ne_true]
      simp only [Option.mem_toList]
      constructor
      · intro h before i after hindices hgone hhit
        -- the first hit is there, so it comes before this one
        have hfirst : findPlayer t s.indices s.hit =
            (findPlayer t before s.hit).or (findPlayer t (i :: after) s.hit) := by
          rw [hindices]
          exact List.find?_append
        cases hbefore : findPlayer t before s.hit with
        | none =>
            rw [hbefore, Option.none_or] at hfirst
            exact absurd (h i (hfirst.trans (List.find?_cons_of_pos hhit))) hgone
        | some j =>
            rw [hbefore] at hfirst
            have hhitj : s.hit j (cstr (t.player j).username) = true := by simpa using List.find?_some hbefore
            exact ⟨trivial, j, List.mem_of_find?_eq_some hbefore, h j hfirst, hhitj⟩
      · intro h i hi
        obtain ⟨before, after, hindices, hhit, hbefore⟩ := findPlayer_eq_some_iff.mp hi
        by_contra hgone
        obtain ⟨-, j, hj, -, hhitj⟩ := h before i after hindices hgone hhit
        exact hbefore j hj hhitj

/-- Selected are hits only. -/
theorem hit_of_mem_selected (h : i ∈ s.selected t) : i ∈ s.indices ∧ s.Hits t i := by
  unfold Search.selected at h
  split at h
  · exact List.mem_filter.mp h
  · obtain ⟨before, after, hindices, hhit, -⟩ := findPlayer_eq_some_iff.mp (Option.mem_toList.mp h)
    exact ⟨hindices ▸ List.mem_append_right _ List.mem_cons_self, hhit⟩

/-- Nobody is selected just if nobody is hit. -/
theorem selected_eq_nil_iff : s.selected t = [] ↔ s.HitsNobody t := by
  unfold Search.selected
  split
  · exact List.filter_eq_nil_iff
  · unfold findPlayer
    rw [Option.toList_eq_nil_iff, List.find?_eq_none]
    exact Iff.rfl

/-- A round of `follow`. -/
def followRound (name : Bytes) (j : Int) : Code Unit := do
  let t ← getState
  onlyIf (strstr (cstr (t.player j).username) name = true) (do
    setMode j 1
    teleportTo j)

theorem run_followRound (name : Bytes) (j : Int) (t : Tunnel) : ∃ out, (followRound name j).run ([] : Bytes) t =
    ⟨some (), [], if strstr (cstr (t.player j).username) name = true
      then t.setPlayer j (fun p => { p with mode := 1 }) else t, out⟩ := by
  unfold followRound
  rw [run_getState_bind]
  by_cases hhit : strstr (cstr (t.player j).username) name = true
  · rw [onlyIf_pos hhit, if_pos hhit]
    exact ⟨_, rfl⟩
  · rw [onlyIf_neg hhit, if_neg hhit]
    exact ⟨_, rfl⟩

/-- `follow` leaves a record alone that it does not hit. -/
theorem player_followRounds {name : Bytes} (js : List Int)
    (hmiss : i ∈ js → ¬ strstr (cstr (t.player i).username) name = true) :
    ∃ t' out, (forEach (followRound name) js).run ([] : Bytes) t = ⟨some (), [], t', out⟩ ∧
      t'.player i = t.player i := by
  -- the record is the same after each round, so it is not hit in the next one either
  induction js generalizing t with
  | nil => exact ⟨t, [], rfl, rfl⟩
  | cons j js ih =>
      obtain ⟨out, hround⟩ := run_followRound name j t
      have hsame : (if strstr (cstr (t.player j).username) name = true
          then t.setPlayer j (fun p => { p with mode := 1 }) else t).player i = t.player i := by
        split
        · next hhit =>
            have hne : i ≠ j := by
              rintro rfl
              exact hmiss List.mem_cons_self hhit
            exact player_setPlayer_of_ne hne t _
        · rfl
      generalize (if strstr (cstr (t.player j).username) name = true
        then t.setPlayer j (fun p => { p with mode := 1 }) else t) = t₁ at hround hsame
      obtain ⟨t', out', hrest, hplayer⟩ := ih (t := t₁)
        (by rw [hsame]; exact fun hi => hmiss (List.mem_cons_of_mem j hi))
      refine ⟨t', out ++ out', ?_, hplayer.trans hsame⟩
      show (do followRound name j; forEach (followRound name) js).run ([] : Bytes) t = _
      rw [run_bind_of hround, hrest]
      rfl

/-- **A command leaves the records alone that it does not select.** -/
theorem player_commanded (hs : searchOf env text = some s) (hi : i ∉ s.selected t) :
    (commanded env text t).player i = t.player i := by
  obtain ⟨name, h1, hcases⟩ := searchOf_cases hs
  -- the first hit is the only one, unless the command goes on
  have hfirst : s.every = false → ∀ j, findPlayer t s.indices s.hit = some j → i ≠ j := by
    rintro hevery j hfind rfl
    unfold Search.selected at hi
    rw [hevery, if_neg Bool.false_ne_true, hfind] at hi
    exact hi (List.mem_singleton.mpr rfl)
  rcases hcases with ⟨h0, rfl⟩ | ⟨h0, ⟨block, h2⟩, rfl⟩ | ⟨h0, rfl⟩ | ⟨h0, rfl⟩ | ⟨h0, rfl⟩ | ⟨h0, rfl⟩
  · rw [(run_of_mem (c := cmdTp (arg1 text)) (by simp [argCommands]) h0).2, h1]
    unfold cmdTp
    dsimp only
    rw [run_getState_bind]
    cases findPlayer t ids (fun _ u => strstr u name) <;> rfl
  · rw [(run_of_mem (c := cmdPlotmotion env (arg1 text) (arg2 text)) (by simp [argCommands]) h0).2, h1, h2]
    unfold cmdPlotmotion
    dsimp only
    rw [if_pos (getBid_ne block), run_update_bind, run_getState_bind]
    cases hfind : findPlayer { t with plotBlock := getBid block } ids (sameName env name) with
    | none => rfl
    | some j =>
        show Function.update t.player j _ i = t.player i
        exact Function.update_of_ne (hfirst rfl j hfind) _ _
  · rw [(run_of_mem (c := cmdFind env (arg1 text)) (by simp [argCommands]) h0).2, h1]
    unfold cmdFind
    dsimp only
    rw [run_getState_bind]
    cases findPlayer t (-1 :: ids) (sameName env name) <;> rfl
  · rw [(run_of_mem (c := cmdIgnore env (arg1 text)) (by simp [argCommands]) h0).2, h1]
    unfold cmdIgnore
    dsimp only
    rw [run_getState_bind]
    cases hfind : findPlayer t ids (sameName env name) with
    | none => rfl
    | some j =>
        dsimp only
        by_cases hignore : (t.player j).ignore = true
        · rw [if_pos hignore]
          show Function.update t.player j _ i = t.player i
          exact Function.update_of_ne (hfirst rfl j hfind) _ _
        · rw [if_neg hignore]
          show Function.update t.player j _ i = t.player i
          exact Function.update_of_ne (hfirst rfl j hfind) _ _
  · have hmiss : i ∈ ids → ¬ strstr (cstr (t.player i).username) name = true := by
      intro hindex hhit
      exact hi (List.mem_filter.mpr ⟨hindex, hhit⟩)
    obtain ⟨t', out, hloop, hplayer⟩ := player_followRounds ids hmiss
    rw [(run_of_mem (c := cmdFollow env (arg1 text)) (by simp [argCommands]) h0).2, h1]
    show ((do forEach (followRound name) ids; onlyIf _ _).run ([] : Bytes) t).state.player i = t.player i
    rw [run_bind_of hloop]
    -- what comes after the loop is a message at most
    unfold onlyIf
    split
    · exact hplayer
    · exact hplayer
  · rw [(run_of_mem (c := cmdSpectate env (arg1 text)) (by simp [argCommands]) h0).2, h1]
    unfold cmdSpectate
    dsimp only
    rw [run_getState_bind]
    cases hfind : findPlayer t ids (sameName env name) with
    | none => rfl
    | some j =>
        show Function.update t.player j _ i = t.player i
        exact Function.update_of_ne (hfirst rfl j hfind) _ _

/-- The command acts on players who are there: it selects no others; it selects nobody and says so if it hits none of
    them, or is meant for none of them; and it does not change the record of anybody else. -/
structure ActsOnPresent (env : Env) (text : Bytes) (s : Search) (t : Tunnel) : Prop where
  selects : ∀ i ∈ s.selected t, (t.player i).valid = true
  reports : ((∀ i ∈ s.indices, s.Hits t i → (t.player i).valid = false) ∨
      ∀ i ∈ s.indices, MeantFor text (nameOf t i) → (t.player i).valid = false) →
    s.selected t = [] ∧ ∃ complaint ∈ notFoundTexts, answered env text t = told complaint
  spares : ∀ i, (t.player i).valid = false → (commanded env text t).player i = t.player i

/-- What a search has to find for the command to act on players who are there: nobody who is gone in front of them; no
    name that is not meant, when none of them is; and if it hits nobody, it is the search of a command that says so. -/
structure FindsPresent (env : Env) (text : Bytes) (s : Search) (t : Tunnel) (there : Int → Prop) : Prop where
  behind : s.GoneBehind t there
  meant : (∀ i ∈ s.indices, MeantFor text (nameOf t i) → ¬ there i) → s.HitsNobody t
  speaks : s.HitsNobody t → SaysNotFound env text

/-- **A command acts on players who are there**, by the flags. -/
theorem actsOnPresent_iff (hs : searchOf env text = some s) : ActsOnPresent env text s t ↔
    FindsPresent env text s t fun i => (t.player i).valid = true := by
  constructor
  · rintro ⟨hselects, hreports, -⟩
    refine ⟨(selected_there_iff _).mp hselects, fun hmeant => ?_, fun hnobody => ?_⟩
    · obtain ⟨hnone, -⟩ := hreports (Or.inr fun i hi him => eq_false_of_ne_true (hmeant i hi him))
      exact selected_eq_nil_iff.mp hnone
    · by_contra hnot
      -- nobody is hit, and nothing is said
      obtain ⟨-, complaint, -, hanswer⟩ := hreports (Or.inl fun i hi hhit => absurd hhit (hnobody i hi))
      have hsilent := (answersNotFound ⟨s, hs, hnobody⟩).silent hnot
      exact nil_ne_told complaint (hsilent.symm.trans hanswer)
  · rintro ⟨hbehind, hmeant, hspeaks⟩
    have hselects := (selected_there_iff _).mpr hbehind
    refine ⟨hselects, fun hgone => ?_, fun i hvalid => player_commanded hs fun hi => ?_⟩
    · have hnobody : s.HitsNobody t := by
        rcases hgone with hgone | hgone
        · -- a player who is selected is hit, and is there
          rw [← selected_eq_nil_iff, List.eq_nil_iff_forall_not_mem]
          intro i hi
          obtain ⟨hindex, hhit⟩ := hit_of_mem_selected hi
          exact absurd ((hselects i hi).symm.trans (hgone i hindex hhit)) (by decide)
        · exact hmeant fun i hi him => by rw [hgone i hi him]; decide
      exact ⟨selected_eq_nil_iff.mpr hnobody, ((answersNotFound ⟨s, hs, hnobody⟩).spoken (hspeaks hnobody)).1⟩
    · exact absurd ((hselects i hi).symm.trans hvalid) (by decide)

end Search

/-- **Commands act only on players who are present.** At a moment behind `k` packets of a run, the command acts on
    valid records only just if its search comes to nobody who has not entered, or has left since, before it comes to
    somebody who is there; it hits no name that is not meant, when none of these is; and it is a command that speaks,
    when it hits nobody. -/
theorem search_present_iff (env : Env) (r : ServerRun env)
    (hothers : ∀ f ∈ r.others, ∀ t i, ((f t).player i).valid = (t.player i).valid) {k : Nat}
    (hk : k ≤ r.packets.length) {t : Tunnel} (ht : ∀ i, (t.player i).valid = ((r.after k).player i).valid)
    {text : Bytes} {s : Search} (hs : searchOf env text = some s) :
    ActsOnPresent env text s t ↔
      FindsPresent env text s t fun i => Client.Present i (r.packets.take k) (r.state.player i).valid := by
  have hthere : (fun i => (t.player i).valid = true) =
      fun i => Client.Present i (r.packets.take k) (r.state.player i).valid := by
    funext i
    rw [ht i, Client.valid_after_iff r hothers hk]
  rw [actsOnPresent_iff hs, hthere]

/-- Bob enters with id 5. -/
def bobEnters : Packet := (0x07, 5 :: padded (ascii "bob") ++ [1, 0, 2, 0, 3, 0, 9, 8])

/-- Bob leaves. -/
def bobLeaves : Packet := (0x0c, [5])

/-- A run of both. -/
def bobVisits : ServerRun {} :=
  .alone {} ServerRun.endDocumented_default [bobEnters, bobLeaves] {} (by decide) (by decide +kernel)

/-- The search of `tp bob`. -/
def searchBob : Search := ⟨ids, fun _ u => strstr u (ascii "bob"), false⟩

theorem searchOf_tp_bob : searchOf {} (ascii "tp bob") = some searchBob := rfl

theorem valid_others : ∀ f ∈ bobVisits.others, ∀ t i, ((f t).player i).valid = (t.player i).valid := by
  intro f hf t i
  obtain rfl : f = id := List.eq_of_mem_replicate hf
  rfl

/-- While Bob is there, he is found. -/
theorem search_present_bob : ActsOnPresent {} (ascii "tp bob") searchBob (bobVisits.after 1) := by
  have hhits : ∀ i ∈ ids, searchBob.Hits (bobVisits.after 1) i → i = 5 := by decide +kernel
  have hfive : searchBob.Hits (bobVisits.after 1) 5 := by decide +kernel
  have hmeant : MeantFor (ascii "tp bob") (nameOf (bobVisits.after 1) 5) := ⟨ascii "bob", by rfl, hfive⟩
  have hthere : Client.Present 5 (bobVisits.packets.take 1) (bobVisits.state.player 5).valid :=
    .inl ⟨[], bobEnters, [], rfl, by decide, fun s hs => absurd hs List.not_mem_nil⟩
  refine (search_present_iff {} bobVisits valid_others (by decide) (fun _ => rfl) searchOf_tp_bob).mpr ⟨?_, ?_, ?_⟩
  · intro before i after hindices hgone hhit
    have hi : i ∈ ids := by
      rw [show ids = before ++ i :: after from hindices]
      exact List.mem_append_right _ List.mem_cons_self
    obtain rfl := hhits i hi hhit
    exact absurd hthere hgone
  · exact fun h => absurd hthere (h 5 (by decide) hmeant)
  · exact fun h => absurd hfive (h 5 (by decide))

/-- The packets that let players enter and leave. -/
def presenceIds : List UInt8 := [0x07, 0x0c, 0x18, 0x21]

/-- When Bob has left, he is found all the same. -/
theorem search_gone : ¬ ∀ (env : Env) (r : ServerRun env), (∀ q ∈ r.packets, q.1 ∈ presenceIds) →
    (∀ f ∈ r.others, ∀ t i, ((f t).player i).valid = (t.player i).valid) → ∀ k ≤ r.packets.length,
      ∀ text s, searchOf env text = some s → ActsOnPresent env text s (r.after k) := by
  intro hall
  have hacts := hall {} bobVisits (by decide) valid_others 2 (by decide) _ _ searchOf_tp_bob
  have hselected : searchBob.selected (bobVisits.after 2) = [5] := by decide +kernel
  have hvalid : ((bobVisits.after 2).player 5).valid = true := hacts.selects 5 (by rw [hselected]; decide)
  exact absurd hvalid (by decide +kernel)

end LavaTunnel
