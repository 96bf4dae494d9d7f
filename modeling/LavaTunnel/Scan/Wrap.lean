import LavaTunnel.Scan.Box

/-!
# `Scan.Wrap` — the loop nest with counters that wrap

The nest of `Scan.Box` with counters that hold at most `M`: the largest value is followed by the smallest. A loop
whose bound its counter cannot pass does not end.

* `Box.ends_entry_iff` — the nest ends just if no loop that it gets into has such a bound;
* `Box.makes_iff` — it visits as many cells as the box has, or goes on visiting for ever;
* `Box.budget` — a nest whose innermost loop is left at once comes nearer to its end with every condition, also if
  the near corner moves in the meantime.
-/

namespace Scan

/-- `v++` on a counter from `-M - 1` to `M`. -/
def bump (M v : Int) : Int := if v < M then v + 1 else -M - 1

theorem bump_of_lt {M v : Int} (h : v < M) : bump M v = v + 1 := if_pos h

theorem bump_le {M v : Int} (hM : 0 ≤ M) : bump M v ≤ M := by
  unfold bump
  split <;> omega

namespace Box

variable (M : Int) (b : Box)

/-- Evaluate one loop condition, with counters that wrap. -/
def nextWrap (p : Place) : Option Place × Option Cell :=
  match p.level with
  | .y => if p.vy ≤ b.y2 then (some ⟨.x, b.x1, p.vy, p.vz⟩, none) else (none, none)
  | .x =>
      if p.vx ≤ b.x2 then (some ⟨.z, p.vx, p.vy, b.z1⟩, none)
      else (some ⟨.y, p.vx, bump M p.vy, p.vz⟩, none)
  | .z =>
      if p.vz ≤ b.z2 then (some ⟨.z, p.vx, p.vy, bump M p.vz⟩, some ⟨p.vx, p.vy, p.vz⟩)
      else (some ⟨.x, bump M p.vx, p.vy, p.vz⟩, none)

/-- Where the nest stands after `n` conditions, `none` once it is done. -/
def walk : Nat → Place → Option Place
  | 0, p => some p
  | n + 1, p => (b.nextWrap M p).1.bind (walk n)

/-- How many cells are visited in the first `n` conditions. -/
def visited : Nat → Place → Nat
  | 0, _ => 0
  | n + 1, p => (b.nextWrap M p).2.toList.length + (b.nextWrap M p).1.elim 0 (visited n)

/-- The nest ends. -/
def Ends (p : Place) : Prop := ∃ n, b.walk M n p = none

/-- No loop that the nest gets into has a bound that its counter cannot pass. -/
def Passes : Prop := b.y1 ≤ b.y2 → b.y2 < M ∧ (b.x1 ≤ b.x2 → b.x2 < M ∧ (b.z1 ≤ b.z2 → b.z2 < M))

instance : Decidable (b.Passes M) := by
  unfold Passes
  exact inferInstance

/-- The next condition visits a cell. -/
def Ready (p : Place) : Prop := p.level = .z ∧ p.vz ≤ b.z2

/-- The nest comes to the visit with the number `k`. -/
def Makes (k : Nat) : Prop := ∃ n p, b.walk M n b.entry = some p ∧ b.visited M n b.entry = k ∧ b.Ready p

variable {M b}

section Next

variable {vx vy vz : Int}

theorem nextWrap_y (h : vy ≤ b.y2) : b.nextWrap M ⟨.y, vx, vy, vz⟩ = (some ⟨.x, b.x1, vy, vz⟩, none) := if_pos h

theorem nextWrap_done (h : ¬ vy ≤ b.y2) : b.nextWrap M ⟨.y, vx, vy, vz⟩ = (none, none) := if_neg h

theorem nextWrap_x (h : vx ≤ b.x2) : b.nextWrap M ⟨.x, vx, vy, vz⟩ = (some ⟨.z, vx, vy, b.z1⟩, none) := if_pos h

theorem nextWrap_x_out (h : ¬ vx ≤ b.x2) :
    b.nextWrap M ⟨.x, vx, vy, vz⟩ = (some ⟨.y, vx, bump M vy, vz⟩, none) := if_neg h

theorem nextWrap_z (h : vz ≤ b.z2) :
    b.nextWrap M ⟨.z, vx, vy, vz⟩ = (some ⟨.z, vx, vy, bump M vz⟩, some ⟨vx, vy, vz⟩) := if_pos h

theorem nextWrap_z_out (h : ¬ vz ≤ b.z2) :
    b.nextWrap M ⟨.z, vx, vy, vz⟩ = (some ⟨.x, bump M vx, vy, vz⟩, none) := if_neg h

end Next

/-! ## Runs -/

section Runs

variable {p p' : Place} {c : Option Cell}

theorem walk_succ (h : b.nextWrap M p = (some p', c)) (n : Nat) : b.walk M (n + 1) p = b.walk M n p' := by
  show (b.nextWrap M p).1.bind _ = _
  rw [h]
  rfl

theorem walk_done (h : b.nextWrap M p = (none, c)) (n : Nat) : b.walk M (n + 1) p = none := by
  show (b.nextWrap M p).1.bind _ = _
  rw [h]
  rfl

theorem visited_succ (h : b.nextWrap M p = (some p', c)) (n : Nat) :
    b.visited M (n + 1) p = c.toList.length + b.visited M n p' := by
  show (b.nextWrap M p).2.toList.length + (b.nextWrap M p).1.elim 0 _ = _
  rw [h]
  rfl

theorem visited_done (h : b.nextWrap M p = (none, c)) (n : Nat) : b.visited M (n + 1) p = c.toList.length := by
  show (b.nextWrap M p).2.toList.length + (b.nextWrap M p).1.elim 0 _ = _
  rw [h]
  rfl

theorem walk_add (m n : Nat) (p : Place) : b.walk M (m + n) p = (b.walk M m p).bind (b.walk M n) := by
  induction m generalizing p with
  | zero =>
      rw [Nat.zero_add]
      rfl
  | succ m ih =>
      rw [Nat.succ_add]
      obtain ⟨o, c, hp⟩ : ∃ o c, b.nextWrap M p = (o, c) := ⟨_, _, rfl⟩
      cases o with
      | none =>
          rw [walk_done hp, walk_done hp]
          rfl
      | some p' => rw [walk_succ hp, walk_succ hp, ih p']

theorem visited_add (m n : Nat) (p : Place) :
    b.visited M (m + n) p = b.visited M m p + (b.walk M m p).elim 0 (b.visited M n) := by
  induction m generalizing p with
  | zero =>
      rw [Nat.zero_add]
      exact (Nat.zero_add _).symm
  | succ m ih =>
      rw [Nat.succ_add]
      obtain ⟨o, c, hp⟩ : ∃ o c, b.nextWrap M p = (o, c) := ⟨_, _, rfl⟩
      cases o with
      | none =>
          rw [visited_done hp, visited_done hp, walk_done hp]
          rfl
      | some p' => rw [visited_succ hp, visited_succ hp, walk_succ hp, ih p', Nat.add_assoc]

theorem ends_of_next (h : b.nextWrap M p = (some p', c)) : b.Ends M p ↔ b.Ends M p' := by
  constructor
  · rintro ⟨n, hn⟩
    cases n with
    | zero => exact absurd hn (Option.some_ne_none p)
    | succ n => exact ⟨n, (walk_succ h n).symm.trans hn⟩
  · rintro ⟨n, hn⟩
    exact ⟨n + 1, (walk_succ h n).trans hn⟩

theorem ends_done (h : b.nextWrap M p = (none, c)) : b.Ends M p := ⟨1, walk_done h 0⟩

/-- **A nest with an invariant under which it goes on** does not end. -/
theorem not_ends_of_invariant {I : Place → Prop} (hstep : ∀ p, I p → ∃ p' c, b.nextWrap M p = (some p', c) ∧ I p')
    (hp : I p) : ¬ b.Ends M p := by
  rintro ⟨n, hn⟩
  induction n generalizing p with
  | zero => exact absurd hn (Option.some_ne_none p)
  | succ n ih =>
      obtain ⟨p', c, hp', hI⟩ := hstep p hp
      exact ih hI ((walk_succ hp' n).symm.trans hn)

end Runs

/-! ## When the nest ends -/

theorem ends_row {vx vy vz : Int} (h : vz ≤ b.z2 → b.z2 < M) (hnext : ∀ v, b.Ends M ⟨.x, bump M vx, vy, v⟩) :
    b.Ends M ⟨.z, vx, vy, vz⟩ := by
  generalize hn : (b.z2 + 1 - vz).toNat = n
  induction n generalizing vz with
  | zero => exact (ends_of_next (nextWrap_z_out (by omega))).mpr (hnext vz)
  | succ n ih =>
      have hle : vz ≤ b.z2 := by omega
      have hlt := h hle
      have hnext : b.nextWrap M ⟨.z, vx, vy, vz⟩ = _ := nextWrap_z hle
      rw [bump_of_lt (lt_of_le_of_lt hle hlt)] at hnext
      exact (ends_of_next hnext).mpr (ih (fun _ => hlt) (by omega))

theorem ends_layer {vx vy : Int} (h : vx ≤ b.x2 → b.x2 < M ∧ (b.z1 ≤ b.z2 → b.z2 < M))
    (hnext : ∀ v w, b.Ends M ⟨.y, v, bump M vy, w⟩) (vz : Int) : b.Ends M ⟨.x, vx, vy, vz⟩ := by
  generalize hn : (b.x2 + 1 - vx).toNat = n
  induction n generalizing vx vz with
  | zero => exact (ends_of_next (nextWrap_x_out (by omega))).mpr (hnext vx vz)
  | succ n ih =>
      have hle : vx ≤ b.x2 := by omega
      obtain ⟨hlt, hrow⟩ := h hle
      refine (ends_of_next (nextWrap_x hle)).mpr (ends_row hrow fun v => ?_)
      rw [bump_of_lt (lt_of_le_of_lt hle hlt)]
      exact ih (fun _ => ⟨hlt, hrow⟩) v (by omega)

theorem ends_layers {vy : Int} (h : vy ≤ b.y2 → b.y2 < M ∧ (b.x1 ≤ b.x2 → b.x2 < M ∧ (b.z1 ≤ b.z2 → b.z2 < M)))
    (vx vz : Int) : b.Ends M ⟨.y, vx, vy, vz⟩ := by
  generalize hn : (b.y2 + 1 - vy).toNat = n
  induction n generalizing vx vy vz with
  | zero => exact ends_done (nextWrap_done (by omega))
  | succ n ih =>
      have hle : vy ≤ b.y2 := by omega
      obtain ⟨hlt, hlayer⟩ := h hle
      refine (ends_of_next (nextWrap_y hle)).mpr (ends_layer hlayer (fun v w => ?_) vz)
      rw [bump_of_lt (lt_of_le_of_lt hle hlt)]
      exact ih (fun _ => ⟨hlt, hlayer⟩) v w (by omega)

section Endless

variable (hM : 0 ≤ M)

include hM

/-- A row whose bound the counter cannot pass. -/
theorem not_ends_row (h : M ≤ b.z2) {vx vy vz : Int} (hv : vz ≤ M) : ¬ b.Ends M ⟨.z, vx, vy, vz⟩ := by
  refine not_ends_of_invariant (I := fun p => p.level = .z ∧ p.vz ≤ M) ?_ ⟨rfl, hv⟩
  rintro ⟨level, vx, vy, vz⟩ ⟨rfl, hv⟩
  exact ⟨_, _, nextWrap_z (le_trans hv h), rfl, bump_le hM⟩

/-- A layer, which does not come back to the loop over `y`. -/
theorem not_ends_layer (h : M ≤ b.x2) {vx vy vz : Int} (hv : vx ≤ M) : ¬ b.Ends M ⟨.x, vx, vy, vz⟩ := by
  refine not_ends_of_invariant (I := fun p => p.level ≠ .y ∧ p.vx ≤ M) ?_ ⟨Level.noConfusion, hv⟩
  rintro ⟨level, vx, vy, vz⟩ ⟨hlevel, hv⟩
  cases level with
  | y => exact absurd rfl hlevel
  | x => exact ⟨_, _, nextWrap_x (le_trans hv h), Level.noConfusion, hv⟩
  | z =>
      by_cases hz : vz ≤ b.z2
      · exact ⟨_, _, nextWrap_z hz, Level.noConfusion, hv⟩
      · exact ⟨_, _, nextWrap_z_out hz, Level.noConfusion, bump_le hM⟩

theorem not_ends_layers (h : M ≤ b.y2) {p : Place} (hv : p.vy ≤ M) : ¬ b.Ends M p := by
  refine not_ends_of_invariant (I := fun p => p.vy ≤ M) ?_ hv
  rintro ⟨level, vx, vy, vz⟩ hv
  cases level with
  | y => exact ⟨_, _, nextWrap_y (le_trans hv h), hv⟩
  | x =>
      by_cases hx : vx ≤ b.x2
      · exact ⟨_, _, nextWrap_x hx, hv⟩
      · exact ⟨_, _, nextWrap_x_out hx, bump_le hM⟩
  | z =>
      by_cases hz : vz ≤ b.z2
      · exact ⟨_, _, nextWrap_z hz, hv⟩
      · exact ⟨_, _, nextWrap_z_out hz, hv⟩

end Endless

/-- **When the nest ends.** -/
theorem ends_entry_iff (hM : 0 ≤ M) (hx : b.x1 ≤ M) (hy : b.y1 ≤ M) (hz : b.z1 ≤ M) :
    b.Ends M b.entry ↔ b.Passes M := by
  constructor
  · intro hends hyin
    have hlt : b.y2 < M := by
      by_contra hge
      exact not_ends_layers hM (not_lt.mp hge) (p := b.entry) hy hends
    have hlayer : b.Ends M ⟨.x, b.x1, b.y1, b.z1⟩ := (ends_of_next (nextWrap_y hyin)).mp hends
    refine ⟨hlt, fun hxin => ?_⟩
    have hltx : b.x2 < M := by
      by_contra hge
      exact not_ends_layer hM (not_lt.mp hge) hx hlayer
    have hrow : b.Ends M ⟨.z, b.x1, b.y1, b.z1⟩ := (ends_of_next (nextWrap_x hxin)).mp hlayer
    refine ⟨hltx, fun _ => ?_⟩
    by_contra hge
    exact not_ends_row hM (not_lt.mp hge) hz hrow
  · exact fun h => ends_layers h b.x1 b.z1

/-! ## What the nest visits -/

/-- Counters that do not wrap count as integers do. -/
theorem nextWrap_eq_next (hx : b.x2 < M) (hy : b.y2 < M) (hz : b.z2 < M) {p : Place} (hp : b.Within p) :
    b.nextWrap M p = b.next p := by
  obtain ⟨level, vx, vy, vz⟩ := p
  cases level with
  | y => rfl
  | x =>
      obtain ⟨-, hvy, -⟩ : b.y1 ≤ vy ∧ vy ≤ b.y2 ∧ b.x1 ≤ vx := hp
      simp only [nextWrap, next, bump_of_lt (lt_of_le_of_lt hvy hy)]
  | z =>
      obtain ⟨-, -, -, hvx, -⟩ : b.y1 ≤ vy ∧ vy ≤ b.y2 ∧ b.x1 ≤ vx ∧ vx ≤ b.x2 ∧ b.z1 ≤ vz := hp
      by_cases h : vz ≤ b.z2
      · simp only [nextWrap, next, if_pos h, bump_of_lt (lt_of_le_of_lt h hz)]
      · simp only [nextWrap, next, if_neg h, bump_of_lt (lt_of_le_of_lt hvx hx)]

/-- What has been visited, and what remains. -/
theorem visited_add_remaining (hx : b.x2 < M) (hy : b.y2 < M) (hz : b.z2 < M) (n : Nat) {p : Place}
    (hp : b.Within p) : b.visited M n p + (b.remaining? (b.walk M n p)).length = (b.remaining p).length := by
  induction n generalizing p with
  | zero => exact Nat.zero_add _
  | succ n ih =>
      have hnext := nextWrap_eq_next hx hy hz hp
      obtain ⟨o, c, hoc⟩ : ∃ o c, b.next p = (o, c) := ⟨_, _, rfl⟩
      rw [remaining_next, hoc, List.length_append]
      cases o with
      | none =>
          rw [visited_done (hnext.trans hoc), walk_done (hnext.trans hoc)]
      | some p' =>
          have hp' : b.Within p' := within_next hp (by rw [hoc])
          rw [visited_succ (hnext.trans hoc), walk_succ (hnext.trans hoc), Nat.add_assoc, ih hp']
          rfl

/-- A row that is visited has cells: the counter starts at the near bound, and if it has moved it has passed it. -/
def Entered (b : Box) (p : Place) : Prop :=
  match p.level with
  | .y => b.y1 ≤ p.vy ∨ b.y1 ≤ b.y2
  | .x => b.y1 ≤ b.y2 ∧ (b.x1 ≤ p.vx ∨ b.x1 ≤ b.x2)
  | .z => b.y1 ≤ b.y2 ∧ b.x1 ≤ b.x2 ∧ (b.z1 ≤ p.vz ∨ b.z1 ≤ b.z2)

theorem entered_next {p p' : Place} {c : Option Cell} (h : b.Entered p) (hp : b.nextWrap M p = (some p', c)) :
    b.Entered p' := by
  obtain ⟨level, vx, vy, vz⟩ := p
  cases level with
  | y =>
      have hy : b.y1 ≤ vy ∨ b.y1 ≤ b.y2 := h
      by_cases hin : vy ≤ b.y2
      · rw [nextWrap_y hin] at hp
        obtain ⟨rfl, -⟩ := Prod.mk.inj hp |>.imp_left Option.some.inj
        exact ⟨hy.elim (fun hle => le_trans hle hin) id, Or.inl (le_refl _)⟩
      · rw [nextWrap_done hin] at hp
        exact absurd (congrArg Prod.fst hp) (Option.some_ne_none p').symm
  | x =>
      obtain ⟨hy, hx⟩ : b.y1 ≤ b.y2 ∧ (b.x1 ≤ vx ∨ b.x1 ≤ b.x2) := h
      by_cases hin : vx ≤ b.x2
      · rw [nextWrap_x hin] at hp
        obtain ⟨rfl, -⟩ := Prod.mk.inj hp |>.imp_left Option.some.inj
        exact ⟨hy, hx.elim (fun hle => le_trans hle hin) id, Or.inl (le_refl _)⟩
      · rw [nextWrap_x_out hin] at hp
        obtain ⟨rfl, -⟩ := Prod.mk.inj hp |>.imp_left Option.some.inj
        exact Or.inr hy
  | z =>
      obtain ⟨hy, hx, hz⟩ : b.y1 ≤ b.y2 ∧ b.x1 ≤ b.x2 ∧ (b.z1 ≤ vz ∨ b.z1 ≤ b.z2) := h
      by_cases hin : vz ≤ b.z2
      · rw [nextWrap_z hin] at hp
        obtain ⟨rfl, -⟩ := Prod.mk.inj hp |>.imp_left Option.some.inj
        exact ⟨hy, hx, Or.inr (hz.elim (fun hle => le_trans hle hin) id)⟩
      · rw [nextWrap_z_out hin] at hp
        obtain ⟨rfl, -⟩ := Prod.mk.inj hp |>.imp_left Option.some.inj
        exact ⟨hy, Or.inr hx⟩

theorem entered_walk {p q : Place} (h : b.Entered p) {n : Nat} (hq : b.walk M n p = some q) : b.Entered q := by
  induction n generalizing p with
  | zero => exact Option.some.inj hq ▸ h
  | succ n ih =>
      obtain ⟨o, c, hp⟩ : ∃ o c, b.nextWrap M p = (o, c) := ⟨_, _, rfl⟩
      cases o with
      | none =>
          rw [walk_done hp] at hq
          exact absurd hq.symm (Option.some_ne_none q)
      | some p' =>
          rw [walk_succ hp] at hq
          exact ih (entered_next h hp) hq

/-- All three ranges have a value. -/
def Nonempty (b : Box) : Prop := b.y1 ≤ b.y2 ∧ b.x1 ≤ b.x2 ∧ b.z1 ≤ b.z2

theorem nonempty_iff : b.Nonempty ↔ b.cells ≠ [] := by
  constructor
  · rintro ⟨hy, hx, hz⟩ hnil
    have hmem : (⟨b.x1, b.y1, b.z1⟩ : Cell) ∈ b.cells :=
      mem_cells.mpr ⟨⟨le_refl _, hx⟩, ⟨le_refl _, hy⟩, le_refl _, hz⟩
    rw [hnil] at hmem
    exact List.not_mem_nil hmem
  · intro h
    obtain ⟨c, hc⟩ := List.exists_mem_of_ne_nil _ h
    obtain ⟨hx, hy, hz⟩ := mem_cells.mp hc
    exact ⟨le_trans hy.1 hy.2, le_trans hx.1 hx.2, le_trans hz.1 hz.2⟩

/-- A nest that ends, and has cells, has no bound that a counter cannot pass. -/
theorem Nonempty.bounded (h : b.Nonempty) (hp : b.Passes M) : b.x2 < M ∧ b.y2 < M ∧ b.z2 < M := by
  obtain ⟨hy, hx, hz⟩ := h
  obtain ⟨hy2, hlayer⟩ := hp hy
  obtain ⟨hx2, hrow⟩ := hlayer hx
  exact ⟨hx2, hy2, hrow hz⟩

/-- Some conditions later, with nothing visited in between, the next condition visits a cell or the nest is done. -/
def Comes (M : Int) (b : Box) (p : Place) : Prop :=
  ∃ n, b.visited M n p = 0 ∧ ∀ q, b.walk M n p = some q → b.Ready q

theorem comes_of_next {p p' : Place} (hp : b.nextWrap M p = (some p', none)) (h : b.Comes M p') : b.Comes M p := by
  obtain ⟨n, hn, hq⟩ := h
  refine ⟨n + 1, ?_, ?_⟩
  · rw [visited_succ hp, hn]
    rfl
  · rw [walk_succ hp]
    exact hq

/-- **From anywhere in a nest with cells** the next visit comes, or the end. -/
theorem comes (h : b.Nonempty) (p : Place) : b.Comes M p := by
  obtain ⟨-, hx, hz⟩ := h
  have hready : ∀ q : Place, b.Ready q → b.Comes M q := fun q hq => ⟨0, rfl, fun q' hq' => Option.some.inj hq' ▸ hq⟩
  have hlayer : ∀ vx vy vz, vx ≤ b.x2 → b.Comes M ⟨.x, vx, vy, vz⟩ := fun vx vy vz hin =>
    comes_of_next (nextWrap_x hin) (hready _ ⟨rfl, hz⟩)
  have hlayers : ∀ vx vy vz, b.Comes M ⟨.y, vx, vy, vz⟩ := by
    intro vx vy vz
    by_cases hin : vy ≤ b.y2
    · exact comes_of_next (nextWrap_y hin) (hlayer _ _ _ hx)
    · refine ⟨1, visited_done (nextWrap_done hin) 0, fun q hq => ?_⟩
      rw [walk_done (nextWrap_done hin)] at hq
      exact absurd hq.symm (Option.some_ne_none q)
  have hany : ∀ vx vy vz, b.Comes M ⟨.x, vx, vy, vz⟩ := by
    intro vx vy vz
    by_cases hin : vx ≤ b.x2
    · exact hlayer vx vy vz hin
    · exact comes_of_next (nextWrap_x_out hin) (hlayers _ _ _)
  obtain ⟨level, vx, vy, vz⟩ := p
  cases level with
  | y => exact hlayers vx vy vz
  | x => exact hany vx vy vz
  | z =>
      by_cases hin : vz ≤ b.z2
      · exact hready _ ⟨rfl, hin⟩
      · exact comes_of_next (nextWrap_z_out hin) (hany _ _ _)

/-- **Which visits are made**: those of the cells, or without end. -/
theorem makes_iff (hM : 0 ≤ M) (hx : b.x1 ≤ M) (hy : b.y1 ≤ M) (hz : b.z1 ≤ M) (k : Nat) :
    b.Makes M k ↔ b.cells ≠ [] ∧ (b.Passes M → k < b.cells.length) := by
  constructor
  · rintro ⟨n, ⟨level, vx, vy, vz⟩, hwalk, rfl, hlevel, hin⟩
    subst hlevel
    obtain ⟨hy', hx', hz'⟩ : b.y1 ≤ b.y2 ∧ b.x1 ≤ b.x2 ∧ (b.z1 ≤ vz ∨ b.z1 ≤ b.z2) :=
      entered_walk (p := b.entry) (Or.inl (le_refl b.y1)) hwalk
    have hne : b.Nonempty := ⟨hy', hx', hz'.elim (fun hle => le_trans hle hin) id⟩
    refine ⟨nonempty_iff.mp hne, fun hpass => ?_⟩
    -- the cell that is next is among those that remain
    obtain ⟨hx2, hy2, hz2⟩ := hne.bounded hpass
    have hleft := visited_add_remaining hx2 hy2 hz2 n (within_entry b)
    rw [remaining_entry, hwalk] at hleft
    have hpos : 0 < (b.remaining ⟨.z, vx, vy, vz⟩).length := by
      simp only [remaining, row_cons hin, List.cons_append, List.length_cons]
      omega
    have hrest : (b.remaining? (some ⟨.z, vx, vy, vz⟩)).length = (b.remaining ⟨.z, vx, vy, vz⟩).length := rfl
    omega
  · rintro ⟨hcells, hk⟩
    have hne := nonempty_iff.mpr hcells
    induction k with
    | zero =>
        -- the first visit is three conditions away
        have hy1 : b.nextWrap M ⟨.y, b.x1, b.y1, b.z1⟩ = _ := nextWrap_y hne.1
        have hx1 : b.nextWrap M ⟨.x, b.x1, b.y1, b.z1⟩ = _ := nextWrap_x hne.2.1
        refine ⟨2, ⟨.z, b.x1, b.y1, b.z1⟩, ?_, ?_, rfl, hne.2.2⟩
        · exact (walk_succ hy1 1).trans (walk_succ hx1 0)
        · exact (visited_succ hy1 1).trans (congrArg (0 + ·) (visited_succ hx1 0))
    | succ k ih =>
        obtain ⟨n, p, hwalk, hcount, hlevel, hin⟩ := ih fun hpass => Nat.lt_of_succ_lt (hk hpass)
        obtain ⟨level, vx, vy, vz⟩ := p
        subst hlevel
        obtain ⟨m, hm, hq⟩ := comes (M := M) hne ⟨.z, vx, vy, bump M vz⟩
        have hstep : b.nextWrap M ⟨.z, vx, vy, vz⟩ = _ := nextWrap_z hin
        have hwalk' : b.walk M (n + (m + 1)) b.entry = b.walk M m ⟨.z, vx, vy, bump M vz⟩ := by
          rw [walk_add, hwalk, Option.bind_some, walk_succ hstep]
        have hcount' : b.visited M (n + (m + 1)) b.entry = k + 1 := by
          rw [visited_add, hwalk, hcount]
          show k + b.visited M (m + 1) _ = k + 1
          rw [visited_succ hstep, hm]
          rfl
        cases hend : b.walk M m ⟨.z, vx, vy, bump M vz⟩ with
        | some q => exact ⟨n + (m + 1), q, hwalk'.trans hend, hcount', hq q hend⟩
        | none =>
            -- the nest would have ended one cell too early
            have hpass : b.Passes M := (ends_entry_iff hM hx hy hz).mp ⟨n + (m + 1), hwalk'.trans hend⟩
            obtain ⟨hx2, hy2, hz2⟩ := hne.bounded hpass
            have hleft := visited_add_remaining hx2 hy2 hz2 (n + (m + 1)) (within_entry b)
            rw [hwalk', hend, hcount', remaining_entry] at hleft
            have hlt := hk hpass
            have hnil : (b.remaining? none).length = 0 := rfl
            omega

/-! ## A nest that is not let in any more -/

/-- The conditions that are left at most, if the innermost loop is left at once and the near corner may move. -/
def budget (M x2 y2 : Int) (p : Place) : Nat :=
  let layer := 2 * (x2 + M + 2).toNat + 2
  match p.level with
  | .y => (y2 + 1 - p.vy).toNat * layer + 1
  | .x => (y2 + 1 - bump M p.vy).toNat * layer + 1 + (2 * (x2 + 1 - p.vx).toNat + 1)
  | .z => (y2 + 1 - bump M p.vy).toNat * layer + 1 + (2 * (x2 + 1 - bump M p.vx).toNat + 2)

section Budget

variable {x2 y2 vx vy vz : Int}

/-- Into a layer, wherever it begins. -/
theorem budget_y (hy : y2 < M) (hin : vy ≤ y2) {x1 : Int} (hx : -M - 1 ≤ x1) :
    budget M x2 y2 ⟨.x, x1, vy, vz⟩ < budget M x2 y2 ⟨.y, vx, vy, vz⟩ := by
  simp only [budget, bump_of_lt (lt_of_le_of_lt hin hy)]
  have hrow : (x2 + 1 - x1).toNat ≤ (x2 + M + 2).toNat := by omega
  have hsucc : (y2 + 1 - vy).toNat = (y2 + 1 - (vy + 1)).toNat + 1 := by omega
  rw [hsucc, Nat.add_one_mul (y2 + 1 - (vy + 1)).toNat]
  omega

theorem budget_x (hx : x2 < M) (hin : vx ≤ x2) {z1 : Int} :
    budget M x2 y2 ⟨.z, vx, vy, z1⟩ < budget M x2 y2 ⟨.x, vx, vy, vz⟩ := by
  simp only [budget, bump_of_lt (lt_of_le_of_lt hin hx)]
  omega

theorem budget_x_out : budget M x2 y2 ⟨.y, vx, bump M vy, vz⟩ < budget M x2 y2 ⟨.x, vx, vy, vz⟩ := by
  simp only [budget]
  omega

theorem budget_z_out : budget M x2 y2 ⟨.x, bump M vx, vy, vz⟩ < budget M x2 y2 ⟨.z, vx, vy, vz⟩ := by
  simp only [budget]
  omega

end Budget

end Box

end Scan
