import LavaTunnel.Correctness.Activity

/-!
# `LavaTunnel.Correctness.Clicks` — the clicks the tunnel keeps to itself

While `zPlace` is on a click sets a point and is not passed on. A `z` or `copy` command waits for two clicks and a
`paste` command for one, but their flags and the count of the points are shared, and a command may come between two
clicks. What bounds the clicks that are lost to the server is `pendingClicks`: no turn raises it but the three
commands, which raise it to two at most, and every click that is kept takes one of it.
-/

namespace LavaTunnel

open Wire Wire.Prog

/-- What decides about a click: the points that are set, and what waits for them. -/
def Tunnel.placing (t : Tunnel) : Int × Bool × Bool × Bool × Bool :=
  (t.points, t.zPlace, t.cuboid.place, t.copy.place, t.paste.place)

/-- At most one point is set, and clicks are kept for somebody. -/
structure Waits (t : Tunnel) : Prop where
  points : t.points = 0 ∨ t.points = 1
  pending : t.zPlace = true → t.cuboid.place = true ∨ t.copy.place = true ∨ t.paste.place = true

/-- How many clicks may be kept before the next command. -/
def pendingClicks (t : Tunnel) : Nat := if t.zPlace then if t.points = 0 then 2 else 1 else 0

theorem pendingClicks_le (t : Tunnel) : pendingClicks t ≤ 2 := by
  unfold pendingClicks
  split_ifs <;> omega

section Same

variable {t t' : Tunnel} (h : t'.placing = t.placing)
include h

theorem Waits.of_placing (hw : Waits t) : Waits t' := by
  simp only [Tunnel.placing, Prod.mk.injEq] at h
  obtain ⟨hpoints, hz, hcuboid, hcopy, hpaste⟩ := h
  refine ⟨?_, ?_⟩
  · rw [hpoints]
    exact hw.points
  · rw [hz, hcuboid, hcopy, hpaste]
    exact hw.pending

theorem pendingClicks_of_placing : pendingClicks t' = pendingClicks t := by
  simp only [Tunnel.placing, Prod.mk.injEq] at h
  unfold pendingClicks
  rw [h.1, h.2.1]

end Same

/-! ## A click -/

/-- The first of two clicks, or the last one: either way one less is pending. -/
theorem waits_pointed {t : Tunnel} (hw : Waits t) (hz : t.zPlace = true) (p : Point) (blocktype : UInt8) :
    Waits (pointed p blocktype t) ∧ pendingClicks (pointed p blocktype t) + 1 ≤ pendingClicks t := by
  have hpending := hw.pending hz
  rcases hw.points with h0 | h1
  · -- no point is set
    cases hcuboid : t.cuboid.place <;> cases hpaste : t.paste.place <;> cases hcopy : t.copy.place <;>
      simp [pointed, cuboidPointed, pastePointed, copyPointed, cuboidFirst, pasteOnly, copyFirst, copySecond,
        pendingClicks, hcuboid, hpaste, hcopy, h0, hz] at hpending ⊢ <;>
      constructor <;> simp_all
  · cases hcuboid : t.cuboid.place <;> cases hpaste : t.paste.place <;> cases hcopy : t.copy.place <;>
      simp [pointed, cuboidPointed, pastePointed, copyPointed, cuboidSecond, pasteOnly, copyFirst, copySecond,
        pendingClicks, hcuboid, hpaste, hcopy, h1, hz] at hpending ⊢ <;>
      constructor <;> simp_all

/-! ## A command -/

/-- The three commands that clicks are kept for. -/
def AsksForClicks (text : Bytes) : Prop :=
  arg0 text = some (ascii "z") ∨ arg0 text = some (ascii "copy") ∨ arg0 text = some (ascii "paste")

instance (text : Bytes) : Decidable (AsksForClicks text) := inferInstanceAs (Decidable (_ ∨ _))

theorem waits_commanded_cancel {t : Tunnel} (hw : Waits t) (env : Env) :
    Waits (commanded env (ascii "cancel") t) ∧ pendingClicks (commanded env (ascii "cancel") t) = 0 := by
  have hz : (commanded env (ascii "cancel") t).zPlace = false := by
    rw [commanded_cancel]
    rfl
  have hpoints : (commanded env (ascii "cancel") t).points = t.points := by
    rw [commanded_cancel]
    split_ifs <;> rfl
  refine ⟨⟨?_, fun h => absurd (hz.symm.trans h) Bool.false_ne_true⟩, ?_⟩
  · rw [hpoints]
    exact hw.points
  · unfold pendingClicks
    rw [hz]
    rfl

/-- A command that asks for clicks has somebody wait for them. -/
theorem waits_commanded_asks {t : Tunnel} (hw : Waits t) (env : Env) {text : Bytes} (h : AsksForClicks text) :
    Waits (commanded env text t) := by
  rcases h with hz | hcopy | hpaste
  · rw [commanded_z env t hz]
    unfold cuboidRequested
    exact ⟨Or.inl rfl, fun _ => Or.inl rfl⟩
  · rw [commanded_copy env t hcopy]
    cases arg1 text with
    | none => exact hw
    | some name => exact ⟨Or.inl rfl, fun _ => Or.inr (Or.inl rfl)⟩
  · rw [commanded_paste env t hpaste]
    cases arg1 text with
    | none => exact hw
    | some name => exact ⟨hw.points, fun _ => Or.inr (Or.inr rfl)⟩

/-- A command that places nothing leaves alone what decides about clicks. -/
theorem placing_commanded (env : Env) {text : Bytes} (h : ¬ Places text) (t : Tunnel) :
    (commanded env text t).placing = t.placing := by
  have htoggles : Toggling (fun _ => True) t (commanded env text t) :=
    (toggling_commandFunc env (M := fun _ => True) trivial (fun _ => trivial) h).run toggling_refl Toggling.trans [] t
  have hsame : (commanded env text t).besidesToggles.placing = t.besidesToggles.placing := by rw [htoggles.1]
  exact hsame

/-- What a command asks for. -/
def askedBy (text : Bytes) : Nat := if AsksForClicks text then 2 else 0

theorem waits_commanded {t : Tunnel} (hw : Waits t) (env : Env) (text : Bytes) :
    Waits (commanded env text t) ∧ pendingClicks (commanded env text t) ≤ pendingClicks t + askedBy text := by
  by_cases hasks : AsksForClicks text
  · refine ⟨waits_commanded_asks hw env hasks, ?_⟩
    have htwo := pendingClicks_le (commanded env text t)
    unfold askedBy
    rw [if_pos hasks]
    omega
  by_cases hcancel : text = ascii "cancel"
  · rw [hcancel]
    obtain ⟨hwaits, hnone⟩ := waits_commanded_cancel hw env
    exact ⟨hwaits, by omega⟩
  · have hplaces : ¬ Places text := by
      unfold Places
      unfold AsksForClicks at hasks
      tauto
    have hsame := placing_commanded env hplaces t
    exact ⟨hw.of_placing hsame, by rw [pendingClicks_of_placing hsame]; omega⟩

/-! ## A turn -/

/-- What is neither a command nor a click leaves alone what decides about clicks. -/
theorem placing_did {env : Env} {t t' : Tunnel} {sent : List (Socket × Bytes)} {a : Activity}
    (h : Did env t t' sent a) (hcommand : ∀ text, a ≠ .command text) (hclick : a ≠ .click) :
    t'.placing = t.placing := by
  cases a with
  | nothing => rw [h.1]
  | command text => exact absurd rfl (hcommand text)
  | login =>
      obtain ⟨⟨unused, rfl⟩, -⟩ := h
      rfl
  | server =>
      have hsame : t'.besidesServer.placing = t.besidesServer.placing := by rw [h.1.1]
      exact hsame
  | click => exact absurd rfl hclick
  | client =>
      have hsame : t'.besidesClient.placing = t.besidesClient.placing := by rw [h.1.besides]
      exact hsame
  | build =>
      have hsame : t'.besidesBuilder.placing = t.besidesBuilder.placing := by rw [h.1.besides]
      exact hsame

/-- How many clicks an activity keeps: one or none. -/
def keptBy (t : Tunnel) (a : Activity) : Nat := if a = .click ∧ t.zPlace = true then 1 else 0

/-- How many clicks an activity asks for. -/
def askedFor : Activity → Nat
  | .command text => askedBy text
  | _ => 0

/-- **Every activity** is paid by what was pending and by what it asks for. -/
theorem waits_did {env : Env} {t t' : Tunnel} {sent : List (Socket × Bytes)} {a : Activity} (h : Did env t t' sent a)
    (hw : Waits t) : Waits t' ∧ keptBy t a + pendingClicks t' ≤ pendingClicks t + askedFor a := by
  by_cases hplain : (∀ text, a ≠ .command text) ∧ a ≠ .click
  · have hsame := placing_did h hplain.1 hplain.2
    refine ⟨hw.of_placing hsame, ?_⟩
    unfold keptBy
    rw [if_neg (fun hkept => hplain.2 hkept.1), pendingClicks_of_placing hsame]
    omega
  · cases a with
    | command text =>
        obtain ⟨hwaits, hle⟩ := waits_commanded hw env text
        rw [h.1]
        exact ⟨hwaits, by simpa [keptBy, askedFor] using hle⟩
    | click =>
        obtain ⟨⟨p, blocktype, rfl⟩, -⟩ := h
        unfold keptBy
        by_cases hz : t.zPlace = true
        · obtain ⟨hwaits, hle⟩ := waits_pointed hw hz p blocktype
          rw [if_pos hz, if_pos ⟨rfl, hz⟩]
          exact ⟨hwaits, by omega⟩
        · rw [if_neg hz, if_neg (fun hkept => hz hkept.2)]
          exact ⟨hw, by omega⟩
    | _ => exact absurd ⟨by simp, by simp⟩ hplain

/-- How many clicks a turn keeps. -/
def clicksKept (env : Env) (c : Turns ThreadId Tunnel Socket Locals) (i : ThreadId) (input : Bytes) : Nat :=
  if c.ended then 0 else keptBy c.state (activity env input i (c.locals i))

/-- How many clicks a turn asks for. -/
def clicksAsked (env : Env) (c : Turns ThreadId Tunnel Socket Locals) (i : ThreadId) (input : Bytes) : Nat :=
  askedFor (activity env input i (c.locals i))

/-- The thread that takes clicks is always started. -/
theorem keptBy_of_not_started {env : Env} {c : Turns ThreadId Tunnel Socket Locals} {i : ThreadId} {input : Bytes}
    (h : ¬ (tunnel env).started i c.state = true) : keptBy c.state (activity env input i (c.locals i)) = 0 := by
  unfold keptBy
  refine if_neg fun hkept => h ?_
  cases i with
  | main => rfl
  | tunnelServer => rfl
  | mcConnect =>
      have hclick := hkept.1
      cases hl : c.locals .mcConnect <;> rw [hl] at hclick <;> exact absurd hclick (by simp [activity])
  | builder =>
      have hclick := hkept.1
      cases hl : c.locals .builder <;> rw [hl] at hclick <;> exact absurd hclick (by simp [activity])

/-- **One turn.** -/
theorem waits_turn {env : Env} (c : Turns ThreadId Tunnel Socket Locals) (i : ThreadId) (input : Bytes)
    (hw : Waits c.state) : Waits ((tunnel env).turn c i input).state ∧
      clicksKept env c i input + pendingClicks ((tunnel env).turn c i input).state ≤
        pendingClicks c.state + clicksAsked env c i input := by
  unfold clicksKept
  cases hended : c.ended with
  | true =>
      rw [turn_of_not (fun hturn => absurd (hended.symm.trans hturn.1) (by decide)), if_pos rfl]
      exact ⟨hw, by omega⟩
  | false =>
      rw [if_neg Bool.false_ne_true]
      by_cases hstarted : (tunnel env).started i c.state = true
      · have hstate : ((tunnel env).turn c i input).state = _ := (turn_does input ⟨hended, hstarted⟩).1
        rw [hstate]
        exact waits_did (did_round i (c.locals i)) hw
      · rw [turn_of_not (fun hturn => hstarted hturn.2), keptBy_of_not_started hstarted]
        exact ⟨hw, by omega⟩

/-- **The clicks the tunnel keeps to itself.** In every run of the four threads, whatever arrives: the clicks that
    are kept, and those that are still pending, are at most those that were pending at the start and two for each
    `z`, `copy` and `paste` command. -/
theorem clicks_kept_le (env : Env) (t : Tunnel) (ht : Waits t) (sched : List (ThreadId × Bytes)) :
    (tunnel env).total (clicksKept env) (beginning t) sched +
        pendingClicks ((tunnel env).turns (beginning t) sched).state ≤
      pendingClicks t + (tunnel env).total (clicksAsked env) (beginning t) sched := by
  have hstep : ∀ (c : Turns ThreadId Tunnel Socket Locals) i input, Waits c.state → True →
      Waits ((tunnel env).turn c i input).state := fun c i input hw _ => (waits_turn c i input hw).1
  have hpay : ∀ (c : Turns ThreadId Tunnel Socket Locals) i input, Waits c.state → True →
      clicksKept env c i input + pendingClicks ((tunnel env).turn c i input).state ≤
        pendingClicks c.state + clicksAsked env c i input := fun c i input hw _ => (waits_turn c i input hw).2
  have hstart : Waits (beginning t).state := ht
  exact turns_pay (fun c => pendingClicks c.state) hstep hpay hstart (always_true (beginning t) sched)

/-- A cuboid is asked for, and there are three clicks. -/
def threeClicks : List (ThreadId × Bytes) :=
  (.main, ascii "'z stone") :: List.replicate 3 (.tunnelServer, [0x05, 0, 1, 0, 2, 0, 3, 1, 1])

/-- Two of them are kept. -/
theorem clicks_kept_le_two :
    (tunnel {}).total (clicksKept {}) (beginning {}) threeClicks +
        pendingClicks ((tunnel {}).turns (beginning {}) threeClicks).state ≤
      0 + (tunnel {}).total (clicksAsked {}) (beginning {}) threeClicks :=
  clicks_kept_le {} {} ⟨Or.inl rfl, fun h => absurd h Bool.false_ne_true⟩ threeClicks

end LavaTunnel
