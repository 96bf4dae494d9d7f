import LavaTunnel.Correctness.Isolation
import LavaTunnel.Correctness.Termination

/-!
# `LavaTunnel.Correctness.Malformed` — pasting whatever the file holds

A paste believes the extents at the head of the chunk. Where they ask for more bytes than the file has, the bytes come
from what was in the buffer before, and from the 9001st byte on from what is behind it; and extents that are not
positive ask for more cells than their product. A file that is not there is read all the same.

The nest is that of `Scan.Wrap`: which bytes are taken, and whether the paste ends, follows from the box alone.
-/

namespace LavaTunnel

open Scan Wire

/-! ## What is to be shown -/

/-- What a paste reads, and `hide`. -/
def pasteWhole (t : Tunnel) : Paste × (Bytes → Option Bytes) × Bool := (t.paste, t.files, t.hide)

/-- The paste passes `bid` to `setBlock` when it stands at the byte `i` of the chunk. -/
def Pastes (env : Env) (t : Tunnel) (i : Nat) (bid : UInt8) : Prop :=
  ∃ fs : List (Tunnel → Tunnel), (∀ f ∈ fs, Keeps pasteWhole f) ∧ ∃ p l,
    (Building.run env fs ⟨.paste, t, []⟩).pc = .pasteLoop p l ∧ p.bufLoop = i ∧
      bid ∈ (setBlocks (builderIteration env (Building.run env fs ⟨.paste, t, []⟩).state (.pasteLoop p l)).calls).map
        (fun call => call.2.2.2)

/-- The paste comes to its end, and `hide` and its flag are as they have to be. -/
def Restored (env : Env) (t : Tunnel) : Prop :=
  ∃ n, ∀ fs : List (Tunnel → Tunnel), fs.length = n → (∀ f ∈ fs, Keeps pasteWhole f) →
    (Building.run env fs ⟨.paste, t, []⟩).pc = .copy ∧
      (Building.run env fs ⟨.paste, t, []⟩).state.paste.start = false ∧
      (Building.run env fs ⟨.paste, t, []⟩).state.hide = t.hide

/-- There is no whole header, or less than the extents in it ask for. -/
def TooShort (chunk : Bytes) : Prop :=
  chunk.length < 6 ∨
    (chunk.length : Int) < 6 + (shortAt chunk 0).toInt * (shortAt chunk 2).toInt * (shortAt chunk 4).toInt

instance (chunk : Bytes) : Decidable (TooShort chunk) := inferInstanceAs (Decidable (_ ∨ _))

/-- Every block is a byte of the file, and a file that is missing or too short is refused. -/
structure PasteHarmless (env : Env) (t : Tunnel) : Prop where
  blocks : ∀ i bid, Pastes env t i bid → (t.files (cstr t.paste.chunkName)).bind (·[i]?) = some bid
  refused : (∀ chunk, t.files (cstr t.paste.chunkName) = some chunk → TooShort chunk) →
    (∀ i bid, ¬ Pastes env t i bid) ∧ Restored env t

/-! ## A step of the paste -/

/-- The bounds of a paste, in which a halted one does not get into the innermost loop. -/
def pasteReach (t : Tunnel) (p : Pasting) : Bounds :=
  { pasteBounds t p with z2 := if t.paste.halt then -32769 else p.pz.toInt }

/-- One more byte of the chunk for a visit. -/
def Pasting.after (p : Pasting) (k : Nat) : Pasting := { p with bufLoop := p.bufLoop + k }

theorem after_after (p : Pasting) (j k : Nat) : (p.after j).after k = p.after (j + k) := by
  unfold Pasting.after
  rw [Nat.add_assoc]

/-- The block of a visit, unless it is air. -/
def pasteTaken (env : Env) (p : Pasting) : List UInt8 :=
  if env.pasteByte p.pastebuf p.bufLoop ≠ 0 then [env.pasteByte p.pastebuf p.bufLoop] else []

theorem mem_pasteTaken (env : Env) (p : Pasting) (bid : UInt8) :
    bid ∈ pasteTaken env p ↔ bid = env.pasteByte p.pastebuf p.bufLoop ∧ bid ≠ 0 := by
  unfold pasteTaken
  split_ifs with h
  · rw [List.mem_singleton]
    exact ⟨fun hbid => ⟨hbid, hbid ▸ h⟩, fun hbid => hbid.1⟩
  · rw [not_ne_iff] at h
    exact iff_of_false List.not_mem_nil fun hbid => hbid.2 (hbid.1.trans h)

theorem setBlocks_pasteBody (env : Env) (p : Pasting) (l : Loops) :
    (setBlocks (pasteBody env p l)).map (fun call => call.2.2.2) = pasteTaken env p := by
  simp only [pasteBody, pasteTaken]
  split_ifs <;> rfl

section Step

variable (env : Env) (t : Tunnel) (p : Pasting) (l : Loops)

theorem inside_pasteReach : l.inside (pasteReach t p) =
    (l.inside (pasteBounds t p) && !(l.level == .z && t.paste.halt)) := by
  obtain ⟨level, vx, vy, vz⟩ := l
  cases level with
  | y => exact (Bool.and_true _).symm
  | x => exact (Bool.and_true _).symm
  | z =>
      have hle := le_toInt vz
      cases h : t.paste.halt with
      | true =>
          simp only [Loops.inside, pasteReach, h, if_true, BEq.rfl, Bool.and_true, Bool.not_true, Bool.and_false,
            decide_eq_false_iff_not]
          omega
      | false =>
          simp only [Loops.inside, pasteReach, pasteBounds, h, Bool.false_eq_true, if_false, Bool.and_false,
            Bool.not_false, Bool.and_true]
          rfl

/-- An iteration, by where the nest goes that a halted paste has. -/
theorem pasteIteration_eq : pasteIteration env t p l =
    if l.inside (pasteReach t p) then
      { next := .pasteLoop (p.after (if l.level = .z then 1 else 0)) (l.enter (pasteReach t p))
        calls := if l.level = .z then pasteBody env p l else [] }
    else { pasteLeave p l with
      update := if l.inside (pasteBounds t p) then pasteStop else (pasteLeave p l).update } := by
  have henter : l.enter (pasteReach t p) = l.enter (pasteBounds t p) := by
    unfold Loops.enter
    cases l.level <;> rfl
  rw [inside_pasteReach, henter]
  unfold pasteIteration
  cases l.inside (pasteBounds t p) with
  | false => rfl
  | true =>
      by_cases hz : l.level = .z
      · cases t.paste.halt with
        | true => simp [hz]
        | false => simp [hz, Pasting.after]
      · simp [hz, Pasting.after]

/-- What it places. -/
theorem setBlocks_pasteIteration : (setBlocks (pasteIteration env t p l).calls).map (fun call => call.2.2.2) =
    if l.inside (pasteReach t p) ∧ l.level = .z then pasteTaken env p else [] := by
  rw [pasteIteration_eq]
  by_cases hin : l.inside (pasteReach t p) = true
  · by_cases hz : l.level = .z
    · simp only [hin, hz, if_true, and_self]
      exact setBlocks_pasteBody env p l
    · simp only [hin, hz, if_true, if_false, and_false]
      rfl
  · simp only [hin, Bool.false_eq_true, if_false, false_and]
    unfold pasteLeave
    cases l.leave <;> rfl

variable {t l}

/-- Where it goes. -/
theorem pasteIteration_next {l' : Loops} (h : l.next (pasteReach t p) = some l') :
    (pasteIteration env t p l).next =
        .pasteLoop (p.after (if l.inside (pasteReach t p) ∧ l.level = .z then 1 else 0)) l' ∧
      ((pasteIteration env t p l).update = id ∨ (pasteIteration env t p l).update = pasteStop) := by
  rw [pasteIteration_eq]
  unfold Loops.next at h
  by_cases hin : l.inside (pasteReach t p) = true
  · rw [if_pos hin, Option.some.injEq] at h
    rw [if_pos hin]
    exact ⟨by simp only [hin, true_and, h], Or.inl rfl⟩
  · rw [if_neg hin] at h
    rw [if_neg hin]
    simp only [hin, pasteLeave, h]
    refine ⟨rfl, ?_⟩
    split_ifs
    · exact Or.inr rfl
    · exact Or.inl rfl

/-- Its end. -/
theorem pasteIteration_done (h : l.next (pasteReach t p) = none) :
    pasteIteration env t p l = { next := .copy, update := fun t => unhide p.hidden (pasteStop t) } := by
  have hin : ¬ l.inside (pasteReach t p) = true := by
    intro hin
    unfold Loops.next at h
    rw [if_pos hin] at h
    exact absurd h (Option.some_ne_none _)
  have hleave : l.leave = none := by
    unfold Loops.next at h
    rwa [if_neg hin] at h
  have hlevel : l.level = .y := by
    obtain ⟨level, vx, vy, vz⟩ := l
    cases level with
    | y => rfl
    | x => exact absurd hleave (Option.some_ne_none _)
    | z => exact absurd hleave (Option.some_ne_none _)
  -- the outermost loop does not look at the flag
  have hout : ¬ l.inside (pasteBounds t p) = true := by
    rw [inside_pasteReach, hlevel] at hin
    simpa using hin
  rw [pasteIteration_eq, if_neg hin, if_neg hout]
  unfold pasteLeave
  rw [hleave]

end Step

/-! ## A run of the paste -/

theorem pasteReach_congr {t s : Tunnel} (h : t.paste = s.paste) (p : Pasting) : pasteReach t p = pasteReach s p := by
  simp only [pasteReach, pasteBounds, h]

section Walk

variable (env : Env) {b : Bounds}

/-- **From condition to condition** the paste takes one byte for every cell that the nest visits. -/
theorem paste_walk (vy : Int) {n : Nat} {l l' : Loops} (hwalk : l.walk b n = some l') {p : Pasting} {t : Tunnel}
    (ht : pasteReach t p = b ∧ t.hide = true) (calls : List BuilderCall) {fs : List (Tunnel → Tunnel)}
    (hlen : fs.length = n) (hfs : ∀ f ∈ fs, Keeps pasteWhole f) :
    (Building.run env fs ⟨.pasteLoop p l, t, calls⟩).pc =
        .pasteLoop (p.after ((b.box vy).visited 32767 n l.place)) l' ∧
      pasteReach (Building.run env fs ⟨.pasteLoop p l, t, calls⟩).state p = b ∧
      (Building.run env fs ⟨.pasteLoop p l, t, calls⟩).state.hide = true := by
  induction n generalizing l p t calls fs with
  | zero =>
      obtain rfl := List.length_eq_zero_iff.mp hlen
      obtain rfl := Option.some.inj hwalk
      exact ⟨rfl, ht⟩
  | succ n ih =>
      obtain ⟨f, fs, rfl⟩ := List.exists_cons_of_length_eq_add_one hlen
      have hft : pasteReach (f t) p = b ∧ (f t).hide = true := by
        have hkeep := hfs f List.mem_cons_self t
        exact ⟨(pasteReach_congr (congrArg Prod.fst hkeep) p).trans ht.1,
          (congrArg (fun k => k.2.2) hkeep).trans ht.2⟩
      unfold Loops.walk at hwalk
      cases hnext : l.next b with
      | none =>
          rw [hnext] at hwalk
          exact absurd hwalk.symm (Option.some_ne_none l')
      | some l₁ =>
          rw [hnext] at hwalk
          obtain ⟨hpc, hupdate⟩ := pasteIteration_next env p (t := f t) (by rw [hft.1]; exact hnext)
          rw [hft.1] at hpc
          have hkept : pasteReach ((pasteIteration env (f t) p l).update (f t)) p = b ∧
              ((pasteIteration env (f t) p l).update (f t)).hide = true := by
            rcases hupdate with hup | hup
            · rw [hup]
              exact hft
            · rw [hup]
              exact hft
          obtain ⟨hpc', hrest⟩ := ih hwalk (p := p.after (if l.inside b ∧ l.level = .z then 1 else 0)) hkept
            (calls ++ (pasteIteration env (f t) p l).calls) (Nat.succ.inj hlen)
            (fun g hg => hfs g (List.mem_cons_of_mem f hg))
          rw [run_cons, show builderIteration env (f t) (.pasteLoop p l) = pasteIteration env (f t) p l from rfl]
          dsimp only
          rw [hpc, Box.visited_succ ((nextWrap_place b vy l).trans (by rw [hnext]; rfl)) n]
          refine ⟨hpc'.trans ?_, hrest⟩
          rw [after_after]
          split_ifs <;> rfl

end Walk

/-- Once the paste is left it is not entered again. -/
theorem paste_left (env : Env) {b : Building} (hpc : Op.paste.within b.pc = false)
    (hstart : b.state.paste.start = false)
    {fs : List (Tunnel → Tunnel)} (hfs : ∀ f ∈ fs, Keeps pasteWhole f) :
    Op.paste.within (Building.run env fs b).pc = false := by
  induction fs generalizing b with
  | nil => exact hpc
  | cons f fs ih =>
      obtain ⟨pc, t, calls⟩ := b
      have hft : (f t).paste.start = false :=
        (congrArg (fun k => k.1.start) (hfs f List.mem_cons_self t)).trans hstart
      have hfs' : ∀ g ∈ fs, Keeps pasteWhole g := fun g hg => hfs g (List.mem_cons_of_mem f hg)
      rw [run_cons]
      cases hat : Op.paste.atTest pc with
      | true =>
          obtain rfl : pc = .paste := by
            cases pc <;> first | rfl | exact Bool.noConfusion hat
          rw [iteration_paste_idle env hft]
          exact ih rfl hft hfs'
      | false =>
          obtain ⟨hrecord, hnext⟩ := (builderStep env (f t) pc).elsewhere hat hpc
          refine ih hnext ?_ hfs'
          have hsame : ((builderIteration env (f t) pc).update (f t)).paste = (f t).paste :=
            Job.paste.inj (hrecord (f t))
          rw [hsame, hft]

/-- A visit is next. -/
theorem ready_place_iff (b : Bounds) (vy : Int) (l : Loops) :
    (b.box vy).Ready l.place ↔ l.inside b = true ∧ l.level = .z := by
  obtain ⟨level, vx, wy, vz⟩ := l
  cases level with
  | y => exact iff_of_false (fun h => Level.noConfusion h.1) (fun h => Level.noConfusion h.2)
  | x => exact iff_of_false (fun h => Level.noConfusion h.1) (fun h => Level.noConfusion h.2)
  | z => exact ⟨fun h => ⟨decide_eq_true h.2, rfl⟩, fun h => ⟨rfl, of_decide_eq_true h.1⟩⟩

/-! ## From the start -/

/-- The box of a paste, of which a halted one takes nothing. -/
def takenBox (t : Tunnel) (pastebuf : Bytes) : Box :=
  { pasteAxes t.paste pastebuf with z2 := if t.paste.halt then -32769 else (pasteAxes t.paste pastebuf).z2 }

theorem pasteAxis_le (near : UInt16) (extent : Int16) : (pasteAxis near extent).1 ≤ 32767 := by
  rw [← pasteCorners_axis]
  exact toInt_le _

/-- Which bytes the nest comes to. -/
theorem makes_takenBox (t : Tunnel) (pastebuf : Bytes) (k : Nat) : (takenBox t pastebuf).Makes 32767 k ↔
    (takenBox t pastebuf).cells ≠ [] ∧ ((takenBox t pastebuf).Passes 32767 →
      k < (takenBox t pastebuf).cells.length) :=
  Box.makes_iff (by decide) (pasteAxis_le _ _) (pasteAxis_le _ _) (pasteAxis_le _ _) k

section Start

variable (env : Env) {t : Tunnel} {chunk : Bytes}

variable (t chunk) in
/-- The bounds in front of the loops. -/
def pasteEntry : Bounds := pasteReach (pasteState env t chunk) (pasteEntered env t chunk).1

variable (t chunk) in
theorem pasteEntry_box :
    (pasteEntry env t chunk).box (pasteEntered env t chunk).2.vy.toInt = takenBox t (pasteBuffer env chunk) := by
  simp only [takenBox, pasteAxes, ← pasteCorners_axis, pasteEntry, pasteReach, pasteBounds, pasteState, pasteEntered,
    Bounds.box]
  rfl

variable (t chunk) in
theorem place_pasteEntered : (pasteEntered env t chunk).2.place = (takenBox t (pasteBuffer env chunk)).entry := by
  simp only [takenBox, Box.entry, pasteAxes, ← pasteCorners_axis, pasteEntered, Loops.place]

/-- The first iteration. -/
theorem pasteStart_kept (hstart : t.paste.start = true) (hfile : t.files (cstr t.paste.chunkName) = some chunk)
    {f : Tunnel → Tunnel} (hf : Keeps pasteWhole f) :
    (builderIteration env (f t) .paste).next = .pasteLoop (pasteEntered env t chunk).1 (pasteEntered env t chunk).2 ∧
      pasteReach ((builderIteration env (f t) .paste).update (f t)) (pasteEntered env t chunk).1 =
        pasteEntry env t chunk ∧
      ((builderIteration env (f t) .paste).update (f t)).hide = true := by
  have hpaste : (f t).paste = t.paste := congrArg Prod.fst (hf t)
  have hfiles : (f t).files = t.files := congrArg (fun k => k.2.1) (hf t)
  have hhide : (f t).hide = t.hide := congrArg (fun k => k.2.2) (hf t)
  have hfound : (f t).files (cstr (f t).paste.chunkName) = some chunk := by rw [hfiles, hpaste, hfile]
  obtain ⟨hnext, hstate⟩ := pasteStart_entered env (by rw [hpaste, hstart]) hfound
  have hsame : pasteEntered env (f t) chunk = pasteEntered env t chunk := by
    simp only [pasteEntered, hpaste, hhide]
  rw [hnext, hstate, hsame]
  refine ⟨rfl, ?_, rfl⟩
  simp only [pasteEntry, pasteReach, pasteBounds, pasteState, hpaste]
  rfl

variable (hstart : t.paste.start = true) (hfile : t.files (cstr t.paste.chunkName) = some chunk)

include hstart hfile

/-- After the start and `n` conditions. -/
theorem paste_reaches {n : Nat} {l' : Loops}
    (hwalk : (pasteEntered env t chunk).2.walk (pasteEntry env t chunk) n = some l') {fs : List (Tunnel → Tunnel)}
    (hlen : fs.length = n + 1) (hfs : ∀ f ∈ fs, Keeps pasteWhole f) :
    (Building.run env fs ⟨.paste, t, []⟩).pc = .pasteLoop ((pasteEntered env t chunk).1.after
        ((takenBox t (pasteBuffer env chunk)).visited 32767 n (takenBox t (pasteBuffer env chunk)).entry)) l' ∧
      pasteReach (Building.run env fs ⟨.paste, t, []⟩).state (pasteEntered env t chunk).1 = pasteEntry env t chunk ∧
      (Building.run env fs ⟨.paste, t, []⟩).state.hide = true := by
  obtain ⟨f, fs, rfl⟩ := List.exists_cons_of_length_eq_add_one hlen
  obtain ⟨hnext, hreach⟩ := pasteStart_kept env hstart hfile (hfs f List.mem_cons_self)
  have hrun := paste_walk env (pasteEntered env t chunk).2.vy.toInt hwalk hreach
    ([] ++ (builderIteration env (f t) .paste).calls) (Nat.succ.inj hlen)
    (fun g hg => hfs g (List.mem_cons_of_mem f hg))
  rw [pasteEntry_box, place_pasteEntered] at hrun
  rw [run_cons]
  simp only [hnext]
  exact hrun

/-- After the last condition. -/
theorem paste_done {n : Nat} {l' : Loops}
    (hwalk : (pasteEntered env t chunk).2.walk (pasteEntry env t chunk) n = some l')
    (hlast : l'.next (pasteEntry env t chunk) = none) {fs : List (Tunnel → Tunnel)} (hlen : fs.length = n + 2)
    (hfs : ∀ f ∈ fs, Keeps pasteWhole f) :
    (Building.run env fs ⟨.paste, t, []⟩).pc = .copy ∧
      (Building.run env fs ⟨.paste, t, []⟩).state.paste.start = false ∧
      (Building.run env fs ⟨.paste, t, []⟩).state.hide = t.hide := by
  obtain ⟨gs, g, rfl⟩ := List.eq_nil_or_concat' fs |>.resolve_left (by rintro rfl; exact absurd hlen (by simp))
  have hgs : gs.length = n + 1 := by simpa using hlen
  obtain ⟨hpc, hreach, hhide⟩ := paste_reaches env hstart hfile hwalk hgs
    (fun f hf => hfs f (List.mem_append_left [g] hf))
  have hg : Keeps pasteWhole g := hfs g (by simp)
  rw [run_append]
  generalize Building.run env gs ⟨.paste, t, []⟩ = b at hpc hreach hhide
  obtain ⟨pc, s, calls⟩ := b
  obtain ⟨k, rfl⟩ : ∃ k, pc = .pasteLoop ((pasteEntered env t chunk).1.after k) l' := ⟨_, hpc⟩
  have hgs : (g s).hide = true := (congrArg (fun k => k.2.2) (hg s)).trans hhide
  have hbounds : pasteReach (g s) ((pasteEntered env t chunk).1.after k) = pasteEntry env t chunk :=
    (pasteReach_congr (congrArg Prod.fst (hg s)) _).trans hreach
  have hdone := pasteIteration_done env ((pasteEntered env t chunk).1.after k) (by rw [hbounds]; exact hlast)
  rw [run_cons, show builderIteration env (g s) (.pasteLoop _ l') = pasteIteration env (g s) _ l' from rfl, hdone]
  refine ⟨rfl, rfl, ?_⟩
  show (unhide t.hide (pasteStop (g s))).hide = t.hide
  unfold unhide
  cases t.hide with
  | true => exact hgs
  | false => rfl

/-- **Which blocks are placed**: the bytes that the nest comes to, but for air. -/
theorem pastes_iff (i : Nat) (bid : UInt8) :
    Pastes env t i bid ↔ ∃ k, (takenBox t (pasteBuffer env chunk)).Makes 32767 k ∧
    i = 6 + k ∧ bid = env.pasteByte (pasteBuffer env chunk) (6 + k) ∧ bid ≠ 0 := by
  have hplace : ∀ n, (takenBox t (pasteBuffer env chunk)).walk 32767 n (takenBox t (pasteBuffer env chunk)).entry =
      ((pasteEntered env t chunk).2.walk (pasteEntry env t chunk) n).map Loops.place := by
    intro n
    rw [← place_pasteEntered, ← pasteEntry_box, walk_place]
  have hready : ∀ l : Loops, (takenBox t (pasteBuffer env chunk)).Ready l.place ↔
      l.inside (pasteEntry env t chunk) = true ∧ l.level = .z := by
    intro l
    rw [← pasteEntry_box]
    exact ready_place_iff _ _ l
  have htaken : ∀ k b, b ∈ pasteTaken env ((pasteEntered env t chunk).1.after k) ↔
      b = env.pasteByte (pasteBuffer env chunk) (6 + k) ∧ b ≠ 0 := fun k b => mem_pasteTaken env _ b
  constructor
  · rintro ⟨fs, hfs, p, l, hpc, rfl, hbid⟩
    cases fs with
    | nil => exact Pc.noConfusion hpc
    | cons f gs =>
        cases hwalk : (pasteEntered env t chunk).2.walk (pasteEntry env t chunk) gs.length with
        | none =>
            -- the paste has been left in the meantime
            obtain ⟨m, hm, l', hwalk', hlast⟩ := exists_last hwalk
            have hsplit := List.take_append_drop (m + 2) (f :: gs)
            have hlen : ((f :: gs).take (m + 2)).length = m + 2 := by
              simp only [List.length_take, List.length_cons]
              omega
            obtain ⟨hcopy, hdown, -⟩ := paste_done env hstart hfile hwalk' hlast hlen
              (fun g hg => hfs g (List.mem_of_mem_take hg))
            have hleft := paste_left env (b := Building.run env ((f :: gs).take (m + 2)) ⟨.paste, t, []⟩)
              (by rw [hcopy]; rfl) hdown
              (fun (g : Tunnel → Tunnel) (hg : g ∈ (f :: gs).drop (m + 2)) => hfs g (List.mem_of_mem_drop hg))
            rw [← run_append, hsplit, hpc] at hleft
            exact Bool.noConfusion hleft
        | some l' =>
            have hlen : (f :: gs).length = gs.length + 1 := List.length_cons
            obtain ⟨hpc', hreach, -⟩ := paste_reaches env hstart hfile hwalk hlen hfs
            obtain ⟨rfl, rfl⟩ := Pc.pasteLoop.inj (hpc.symm.trans hpc')
            have hcalls := setBlocks_pasteIteration env (Building.run env (f :: gs) ⟨.paste, t, []⟩).state
              ((pasteEntered env t chunk).1.after ((takenBox t (pasteBuffer env chunk)).visited 32767 gs.length
                (takenBox t (pasteBuffer env chunk)).entry)) l
            rw [show pasteReach _ ((pasteEntered env t chunk).1.after _) = _ from hreach] at hcalls
            rw [show builderIteration env _ (.pasteLoop _ l) = pasteIteration env _ _ l from rfl, hcalls] at hbid
            split_ifs at hbid with hin
            · exact ⟨_, ⟨gs.length, l.place, by rw [hplace, hwalk]; rfl, rfl, (hready l).mpr hin⟩, rfl,
                (htaken _ bid).mp hbid⟩
            · exact absurd hbid List.not_mem_nil
  · rintro ⟨k, ⟨n, place, hwalk, rfl, hin⟩, rfl, hbid, hne⟩
    rw [hplace, Option.map_eq_some_iff] at hwalk
    obtain ⟨l, hwalk, rfl⟩ := hwalk
    have hfs : ∀ f ∈ List.replicate (n + 1) (id : Tunnel → Tunnel), Keeps pasteWhole f := by
      intro f hf
      rw [List.eq_of_mem_replicate hf]
      exact keeps_id pasteWhole
    obtain ⟨hpc, hreach, -⟩ := paste_reaches env hstart hfile hwalk (List.length_replicate (n := n + 1)) hfs
    refine ⟨_, hfs, _, l, hpc, rfl, ?_⟩
    have hcalls := setBlocks_pasteIteration env (Building.run env (List.replicate (n + 1) id) ⟨.paste, t, []⟩).state
      ((pasteEntered env t chunk).1.after ((takenBox t (pasteBuffer env chunk)).visited 32767 n
        (takenBox t (pasteBuffer env chunk)).entry)) l
    rw [show pasteReach _ ((pasteEntered env t chunk).1.after _) = _ from hreach,
      if_pos ((hready l).mp hin)] at hcalls
    rw [show builderIteration env _ (.pasteLoop _ l) = pasteIteration env _ _ l from rfl, hcalls]
    exact (htaken _ bid).mpr ⟨hbid, hne⟩

/-- **The paste restores** what it has changed just if its loops end. -/
theorem restored_iff : Restored env t ↔ (takenBox t (pasteBuffer env chunk)).Passes 32767 := by
  have hends : (takenBox t (pasteBuffer env chunk)).Passes 32767 ↔
      ∃ n, (pasteEntered env t chunk).2.walk (pasteEntry env t chunk) n = none := by
    rw [← pasteEntry_box]
    exact (walk_ends_iff _ _).symm
  rw [hends]
  constructor
  · rintro ⟨n, hn⟩
    have hids : ∀ n, ∀ f ∈ List.replicate n (id : Tunnel → Tunnel), Keeps pasteWhole f := by
      intro n f hf
      rw [List.eq_of_mem_replicate hf]
      exact keeps_id pasteWhole
    obtain ⟨hpc, -⟩ := hn (List.replicate n id) List.length_replicate (hids n)
    cases n with
    | zero => exact Pc.noConfusion hpc
    | succ n =>
        cases hwalk : (pasteEntered env t chunk).2.walk (pasteEntry env t chunk) n with
        | none => exact ⟨n, hwalk⟩
        | some l' =>
            obtain ⟨hpc', -⟩ := paste_reaches env hstart hfile hwalk (List.length_replicate (n := n + 1)) (hids _)
            exact Pc.noConfusion (hpc.symm.trans hpc')
  · rintro ⟨n, hn⟩
    obtain ⟨m, -, l', hwalk, hlast⟩ := exists_last hn
    exact ⟨m + 2, fun fs hlen hfs => paste_done env hstart hfile hwalk hlast hlen hfs⟩

end Start

/-- A file that is missing crashes the builder. -/
theorem missing_not_restored (env : Env) {t : Tunnel} (hstart : t.paste.start = true)
    (hfile : t.files (cstr t.paste.chunkName) = none) : ¬ Restored env t := by
  rintro ⟨n, hn⟩
  have hpc := (hn (List.replicate n id) List.length_replicate (by
    intro f hf
    rw [List.eq_of_mem_replicate hf]
    exact keeps_id pasteWhole)).1
  cases n with
  | zero => exact Pc.noConfusion hpc
  | succ n =>
      have hit : (builderIteration env t .paste).next = .crashed := by
        rw [iteration_paste_start env hstart]
        unfold pasteStart
        rw [hfile]
      rw [List.replicate_succ, run_cons] at hpc
      simp only [id_eq, hit, run_crashed] at hpc
      exact Pc.noConfusion hpc

/-! ## The result -/

/-- Of the bytes that the nest comes to each one that is not air is in the file, if the file is to be pasted at all;
    and the paste of a file that is too short ends. -/
structure ChunkSound (env : Env) (t : Tunnel) (chunk : Bytes) : Prop where
  bytes : ∀ k, (takenBox t (pasteBuffer env chunk)).cells ≠ [] →
    ((takenBox t (pasteBuffer env chunk)).Passes 32767 → k < (takenBox t (pasteBuffer env chunk)).cells.length) →
      env.pasteByte (pasteBuffer env chunk) (6 + k) = 0 ∨
        ¬ TooShort chunk ∧ chunk[6 + k]? = some (env.pasteByte (pasteBuffer env chunk) (6 + k))
  ends : TooShort chunk → (takenBox t (pasteBuffer env chunk)).Passes 32767

/-- **A paste is harmless** just if there is a file whose bytes are enough for the nest. -/
theorem pasteHarmless_iff (env : Env) {t : Tunnel} (hstart : t.paste.start = true) :
    PasteHarmless env t ↔ ∃ chunk, t.files (cstr t.paste.chunkName) = some chunk ∧ ChunkSound env t chunk := by
  cases hfile : t.files (cstr t.paste.chunkName) with
  | none =>
      refine iff_of_false (fun h => ?_) (fun ⟨chunk, hchunk, _⟩ => absurd hchunk.symm (Option.some_ne_none chunk))
      exact missing_not_restored env hstart hfile (h.refused fun chunk hchunk => by
        rw [hfile] at hchunk
        exact absurd hchunk.symm (Option.some_ne_none chunk)).2
  | some chunk =>
      have hpastes := pastes_iff env hstart hfile
      have hrestored := restored_iff env hstart hfile
      constructor
      · intro h
        refine ⟨chunk, rfl, fun k hcells hk => ?_, fun hshort => ?_⟩
        · by_cases h0 : env.pasteByte (pasteBuffer env chunk) (6 + k) = 0
          · exact Or.inl h0
          · have hplaced : Pastes env t (6 + k) (env.pasteByte (pasteBuffer env chunk) (6 + k)) :=
              (hpastes _ _).mpr ⟨k, (makes_takenBox t _ k).mpr ⟨hcells, hk⟩, rfl, rfl, h0⟩
            refine Or.inr ⟨fun hshort => ?_, ?_⟩
            · refine (h.refused fun chunk' hchunk => ?_).1 _ _ hplaced
              exact Option.some.inj (hfile.symm.trans hchunk) ▸ hshort
            · have hbyte := h.blocks _ _ hplaced
              rwa [hfile] at hbyte
        · refine hrestored.mp (h.refused fun chunk' hchunk => ?_).2
          exact Option.some.inj (hfile.symm.trans hchunk) ▸ hshort
      · rintro ⟨chunk', hchunk, hsound⟩
        obtain rfl := Option.some.inj hchunk
        refine ⟨fun i bid hplaced => ?_, fun hshort => ⟨fun i bid hplaced => ?_, ?_⟩⟩
        · obtain ⟨k, hmakes, rfl, rfl, h0⟩ := (hpastes i bid).mp hplaced
          obtain ⟨hcells, hk⟩ := (makes_takenBox t _ k).mp hmakes
          rw [hfile]
          exact ((hsound.bytes k hcells hk).resolve_left h0).2
        · obtain ⟨k, hmakes, rfl, rfl, h0⟩ := (hpastes i bid).mp hplaced
          obtain ⟨hcells, hk⟩ := (makes_takenBox t _ k).mp hmakes
          exact ((hsound.bytes k hcells hk).resolve_left h0).1 (hshort chunk hfile)
        · exact hrestored.mpr (hsound.ends (hshort chunk hfile))

/-- A chunk of one block. -/
theorem pasteHarmless_block :
    PasteHarmless {} { paste := { x := 7, y := 7, z := 7, start := true },
                       files := fun _ => some [1, 0, 1, 0, 1, 0, 3] } := by
  refine (pasteHarmless_iff {} rfl).mpr ⟨[1, 0, 1, 0, 1, 0, 3], rfl, fun k _ hk => ?_, fun _ => by decide +kernel⟩
  obtain rfl : k = 0 := Nat.lt_one_iff.mp (lt_of_lt_of_eq (hk (by decide +kernel)) (by decide +kernel))
  exact Or.inr (by decide +kernel)

/-- A chunk of two blocks, of which the file has one: the other is what the buffer has held. -/
theorem not_pasteHarmless_cut : ¬ ∀ (env : Env) (t : Tunnel), t.paste.start = true → PasteHarmless env t := by
  intro hall
  let env : Env := { junk := fun _ _ => 9 }
  let t : Tunnel :=
    { paste := { x := 7, y := 7, z := 7, start := true }, files := fun _ => some [1, 0, 1, 0, 2, 0, 3] }
  obtain ⟨chunk, hchunk, hsound⟩ := (pasteHarmless_iff env rfl).mp (hall env t rfl)
  obtain rfl : [1, 0, 1, 0, 2, 0, 3] = chunk := Option.some.inj hchunk
  have hbyte := hsound.bytes 1 (by decide +kernel) (fun _ => by decide +kernel)
  revert hbyte
  decide +kernel

end LavaTunnel
