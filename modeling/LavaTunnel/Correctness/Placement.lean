import LavaTunnel.Correctness.Requests

/-!
# `LavaTunnel.Correctness.Placement` — commands and clicks, in any order

The three operations share the flag `zPlace` and the counter `points`, and a click asks them one after the
other. A run of commands and clicks keeps the books straight (`Placed`) just as long as no click comes while
two operations wait, and no `cancel` while the cuboid waits (`Orderly`): the click would go to both, and
`cancel` forgets `cuboid.place`.

What the code should remember is written down beside it: the clicks since each operation was requested.
-/

namespace LavaTunnel

open Wire

/-! ## The runs -/

/-- A placement command, or a click. -/
inductive PlaceEvent where
  | z (text : Bytes) (h : arg0 text = some (ascii "z"))
  | copy (text : Bytes) (h : arg0 text = some (ascii "copy"))
  | paste (text : Bytes) (h : arg0 text = some (ascii "paste"))
  | cancel
  | click (payload : Bytes) (h : payload.length = 8)

/-- What the tunnel makes of it. -/
def PlaceEvent.step (env : Env) : PlaceEvent → Tunnel → Tunnel
  | .z text _ => commanded env text
  | .copy text _ => commanded env text
  | .paste text _ => commanded env text
  | .cancel => commanded env (ascii "cancel")
  | .click payload _ => clicked env payload

/-- The clicks since the command that requested each operation. A `copy` or `paste` without a name requests
    nothing. -/
abbrev Clicks := Op → List Point

/-- The books after an event. -/
def PlaceEvent.clicks : PlaceEvent → Clicks → Clicks
  | .z _ _, r => Function.update r .cuboid []
  | .copy text _, r => if arg1 text = none then r else Function.update r .copy []
  | .paste text _, r => if arg1 text = none then r else Function.update r .paste []
  | .cancel, r => r
  | .click payload _, r => fun o => r o ++ [clickPoint payload]

/-- The state with all start flags down, so that a flag that is up after a click was set by it. -/
def unstarted (t : Tunnel) : Tunnel :=
  { t with
    cuboid := { t.cuboid with start := false }
    copy := { t.copy with start := false }
    paste := { t.paste with start := false } }

/-- The click sets the start flag. -/
def Op.StartedBy (o : Op) (env : Env) (payload : Bytes) (t : Tunnel) : Prop :=
  o.start (clicked env payload (unstarted t)) = true

/-- The operation records the click: a click elsewhere would leave it with other corners. -/
def Op.Records (o : Op) (env : Env) (payload : Bytes) (t : Tunnel) : Prop :=
  ∃ payload' : Bytes, payload'.length = 8 ∧ o.corners (clicked env payload' t) ≠ o.corners (clicked env payload t)

/-- `zPlace` is up just while an operation waits. -/
def Flagged (t : Tunnel) : Prop := t.zPlace = true ↔ ∃ o : Op, o.place t = true

/-- What holds of a click; `r` are the books after it. -/
structure ClickPlaced (env : Env) (payload : Bytes) (t : Tunnel) (r : Clicks) : Prop where
  corners : ∀ o : Op, o.StartedBy env payload t → o.corners (clicked env payload t) = r o
  once : ∀ o o' : Op, o.Records env payload t → o'.Records env payload t → o = o'

/-- What holds of an event. -/
def PlaceEvent.Placed (env : Env) (e : PlaceEvent) (t : Tunnel) (r : Clicks) : Prop :=
  Flagged (e.step env t) ∧
    match e with
    | .click payload _ => ClickPlaced env payload t (e.clicks r)
    | _ => True

/-- What holds along a run. -/
def Placed (env : Env) : List PlaceEvent → Tunnel → Clicks → Prop
  | [], _, _ => True
  | e :: es, t, r => e.Placed env t r ∧ Placed env es (e.step env t) (e.clicks r)

/-- The event comes at a good moment. -/
def PlaceEvent.Orderly : PlaceEvent → Tunnel → Prop
  | .cancel, t => t.cuboid.place = false
  | .click _ _, t => ∀ o o' : Op, o.place t = true → o'.place t = true → o = o'
  | _, _ => True

/-- Every event of the run comes at a good moment. -/
def Orderly (env : Env) : List PlaceEvent → Tunnel → Prop
  | [], _ => True
  | e :: es, t => e.Orderly t ∧ Orderly env es (e.step env t)

/-- No operation waits. -/
structure Unplaced (t : Tunnel) : Prop where
  zPlace : t.zPlace = false
  place : ∀ o : Op, o.place t = false

/-! ## The invariant -/

/-- Only this operation waits. -/
def Op.Alone (o : Op) (t : Tunnel) : Prop := o.place t = true ∧ ∀ o' : Op, o'.place t = true → o' = o

/-- The corners that a waiting operation has already. -/
def Op.recorded : Op → Tunnel → List Point
  | .cuboid, t => if t.points = 0 then [] else [(t.cuboid.x1, t.cuboid.y1, t.cuboid.z1)]
  | .copy, t => if t.points = 0 then [] else [(t.copy.x1, t.copy.y1, t.copy.z1)]
  | .paste, _ => []

/-- The books are straight: an operation that waits alone has recorded the clicks since its request. -/
structure PlaceInv (t : Tunnel) (r : Clicks) : Prop where
  flag : Flagged t
  points : t.cuboid.place = true ∨ t.copy.place = true → t.points = 0 ∨ t.points = 1
  recorded : ∀ o : Op, o.Alone t → r o = o.recorded t

theorem Unplaced.flagged {t : Tunnel} (h : Unplaced t) : Flagged t := by
  refine iff_of_false (by simp [h.zPlace]) ?_
  rintro ⟨o, ho⟩
  simp [h.place o] at ho

/-- While nothing waits the books are straight. -/
theorem Unplaced.inv {t : Tunnel} (h : Unplaced t) (r : Clicks) : PlaceInv t r where
  flag := h.flagged
  points := by
    rintro (hplace | hplace)
    · exact absurd hplace (by simp [show t.cuboid.place = false from h.place .cuboid])
    · exact absurd hplace (by simp [show t.copy.place = false from h.place .copy])
  recorded o ho := absurd ho.1 (by simp [h.place o])

/-! ## `cancel` -/

/-- `cancel` forgets the place flag of the cuboid. -/
theorem cuboid_place_cancel (env : Env) (t : Tunnel) :
    (commanded env (ascii "cancel") t).cuboid.place = t.cuboid.place := by
  rw [commanded_cancel]
  split_ifs <;> rfl

/-- All else that waits is taken back. -/
theorem unplaced_cancel_iff (env : Env) (t : Tunnel) :
    Unplaced (commanded env (ascii "cancel") t) ↔ t.cuboid.place = false := by
  constructor
  · intro h
    exact (cuboid_place_cancel env t).symm.trans (h.place .cuboid)
  · intro hplace
    refine ⟨by rw [commanded_cancel]; rfl, fun o => ?_⟩
    cases o with
    | cuboid => exact (cuboid_place_cancel env t).trans hplace
    | copy =>
        rw [commanded_cancel]
        rfl
    | paste =>
        rw [commanded_cancel]
        rfl

/-! ## Clicks -/

section Clicks

variable {env : Env} {payload : Bytes} {p : Point} {b : UInt8} {t : Tunnel} {r : Clicks} {o : Op}

/-- An operation that does not wait keeps its corners. -/
theorem corners_pointed_of_not (h : o.place t = false) : o.corners (pointed p b t) = o.corners t := by
  cases o with
  | cuboid =>
      show (pointed p b t).cuboid.corners = t.cuboid.corners
      rw [pointed_cuboid, cuboidPointed_of_not p b h]
  | copy =>
      show (pointed p b t).copy.corners = t.copy.corners
      rw [pointed_copy_of_not p b h]
  | paste =>
      show (pointed p b t).paste.corners = t.paste.corners
      rw [pointed_paste, pastePointed_of_not p h]

/-- The counter the copy finds: a cuboid that waits, too, has moved it. -/
theorem points_cuboidPointed (h : t.points = 0 ∨ t.points = 1) :
    (cuboidPointed p b t).points = if t.cuboid.place then 1 - t.points else t.points := by
  cases hplace : t.cuboid.place with
  | false => rw [cuboidPointed_of_not p b hplace, if_neg (by decide)]
  | true =>
      rcases h with h0 | h1
      · rw [cuboidPointed_first p b hplace h0, if_pos rfl, h0]
        rfl
      · rw [cuboidPointed_second p b hplace h1, if_pos rfl, h1]
        rfl

/-- **Every operation that waits takes the click** as one of its corners, also if others wait. -/
theorem exists_corner_pointed (h : o.place t = true)
    (hpoints : t.cuboid.place = true ∨ t.copy.place = true → t.points = 0 ∨ t.points = 1) :
    ∃ i : Nat, ∀ (p : Point) (b : UInt8), (o.corners (pointed p b t))[i]? = some p := by
  cases o with
  | cuboid =>
      rcases hpoints (Or.inl h) with h0 | h1
      · refine ⟨0, fun p b => ?_⟩
        show (pointed p b t).cuboid.corners[0]? = some p
        rw [pointed_cuboid, cuboidPointed_first p b h h0]
        rfl
      · refine ⟨1, fun p b => ?_⟩
        show (pointed p b t).cuboid.corners[1]? = some p
        rw [pointed_cuboid, cuboidPointed_second p b h h1]
        rfl
  | copy =>
      -- the cuboid and the paste come first: they leave the copy alone, and the cuboid moves the counter
      have hcopy : ∀ (p : Point) (b : UInt8), (pastePointed p (cuboidPointed p b t)).copy.place = true := by
        intro p b
        rw [pastePointed_copy, cuboidPointed_copy]
        exact h
      have hcount : ∀ (p : Point) (b : UInt8), (pastePointed p (cuboidPointed p b t)).points =
          if t.cuboid.place then 1 - t.points else t.points := by
        intro p b
        rw [pastePointed_points, points_cuboidPointed (hpoints (Or.inr h))]
      have hcases : (if t.cuboid.place then 1 - t.points else t.points) = 0 ∨
          (if t.cuboid.place then 1 - t.points else t.points) = 1 := by
        have hrange := hpoints (Or.inr h)
        split_ifs <;> omega
      rcases hcases with h0 | h1
      · refine ⟨0, fun p b => ?_⟩
        show (copyPointed p (pastePointed p (cuboidPointed p b t))).copy.corners[0]? = some p
        rw [copyPointed_first p (hcopy p b) ((hcount p b).trans h0)]
        rfl
      · refine ⟨1, fun p b => ?_⟩
        show (copyPointed p (pastePointed p (cuboidPointed p b t))).copy.corners[1]? = some p
        rw [copyPointed_second p (hcopy p b) ((hcount p b).trans h1)]
        rfl
  | paste =>
      refine ⟨0, fun p b => ?_⟩
      show (pointed p b t).paste.corners[0]? = some p
      rw [pointed_paste, pastePointed_only p h]
      rfl

/-- There are clicks elsewhere. -/
theorem exists_other_click (payload : Bytes) :
    ∃ payload' : Bytes, payload'.length = 8 ∧ clickPoint payload' ≠ clickPoint payload := by
  by_cases h : clickPoint payload = (0, 0, 0)
  · refine ⟨List.replicate 8 255, rfl, ?_⟩
    rw [h]
    decide
  · exact ⟨List.replicate 8 0, rfl, fun heq => h (heq.symm.trans rfl)⟩

/-- **Just the operations that wait record a click.** -/
theorem records_iff (hinv : PlaceInv t r) (h : payload.length = 8) :
    o.Records env payload t ↔ o.place t = true := by
  constructor
  · -- if `place` is down, every click leaves the same corners
    rintro ⟨payload', h', hne⟩
    by_contra hplace
    rw [Bool.not_eq_true] at hplace
    apply hne
    cases hz : t.zPlace with
    | false => rw [clicked_of_not_zPlace env h' hz, clicked_of_not_zPlace env h hz]
    | true =>
        rw [clicked_of_zPlace env h' hz, clicked_of_zPlace env h hz, corners_pointed_of_not hplace,
          corners_pointed_of_not hplace]
  · -- if it is up, another click leaves another corner
    intro hplace
    have hz : t.zPlace = true := hinv.flag.mpr ⟨o, hplace⟩
    obtain ⟨payload', h', hne⟩ := exists_other_click payload
    obtain ⟨i, hi⟩ := exists_corner_pointed hplace hinv.points
    refine ⟨payload', h', fun heq => hne ?_⟩
    rw [clicked_of_zPlace env h' hz, clicked_of_zPlace env h hz] at heq
    have hcorner := (hi (clickPoint payload') (byte (field payload' 7 1))).symm.trans
      ((congrArg (fun cs => cs[i]?) heq).trans (hi (clickPoint payload) (byte (field payload 7 1))))
    exact Option.some.inj hcorner

/-! ### A click for one operation -/

theorem place_of_alone (h : o.Alone t) (o' : Op) (hne : o' ≠ o) : o'.place t = false := by
  cases hplace : o'.place t with
  | false => rfl
  | true => exact absurd (h.2 o' hplace) hne

theorem Op.Alone.congr {s : Tunnel} (h : o.Alone t) (hs : ∀ o' : Op, o'.place s = o'.place t) : o.Alone s :=
  ⟨(hs o).trans h.1, fun o' ho' => h.2 o' ((hs o').symm.trans ho')⟩

theorem pointed_of_alone_cuboid (h : Op.cuboid.Alone t) : pointed p b t = cuboidPointed p b t := by
  have hpaste : t.paste.place = false := place_of_alone h .paste (by decide)
  have hcopy : t.copy.place = false := place_of_alone h .copy (by decide)
  unfold pointed
  rw [pastePointed_of_not p (by rw [cuboidPointed_paste, hpaste]),
    copyPointed_of_not p (by rw [cuboidPointed_copy, hcopy])]

theorem pointed_of_alone_paste (h : Op.paste.Alone t) : pointed p b t = pasteOnly p t := by
  have hcuboid : t.cuboid.place = false := place_of_alone h .cuboid (by decide)
  have hcopy : t.copy.place = false := place_of_alone h .copy (by decide)
  unfold pointed
  rw [cuboidPointed_of_not p b hcuboid, copyPointed_of_not p (by rw [pastePointed_copy, hcopy]),
    pastePointed_only p h.1]

theorem pointed_of_alone_copy (h : Op.copy.Alone t) : pointed p b t = copyPointed p t := by
  have hcuboid : t.cuboid.place = false := place_of_alone h .cuboid (by decide)
  have hpaste : t.paste.place = false := place_of_alone h .paste (by decide)
  unfold pointed
  rw [cuboidPointed_of_not p b hcuboid, pastePointed_of_not p hpaste]

/-- The next click is the last one the operation waits for. -/
def Op.Last : Op → Tunnel → Prop
  | .paste, _ => True
  | _, t => t.points = 1

/-- A first corner is recorded, and nothing else happens. -/
theorem pointed_alone_first (h : o.Alone t) (hinv : PlaceInv t r) (hlast : ¬ o.Last t) :
    o.Alone (pointed p b t) ∧ (pointed p b t).zPlace = true ∧ (pointed p b t).points = 1 ∧
      o.recorded (pointed p b t) = o.recorded t ++ [p] ∧ ∀ o' : Op, o'.start (pointed p b t) = o'.start t := by
  have hz : t.zPlace = true := hinv.flag.mpr ⟨o, h.1⟩
  cases o with
  | cuboid =>
      have h0 : t.points = 0 := (hinv.points (Or.inl h.1)).resolve_right hlast
      rw [pointed_of_alone_cuboid h, cuboidPointed_first p b h.1 h0]
      refine ⟨h.congr fun o' => by cases o' <;> rfl, hz, rfl, ?_, fun o' => by cases o' <;> rfl⟩
      simp [Op.recorded, cuboidFirst, h0]
  | copy =>
      have h0 : t.points = 0 := (hinv.points (Or.inr h.1)).resolve_right hlast
      rw [pointed_of_alone_copy h, copyPointed_first p h.1 h0]
      refine ⟨h.congr fun o' => by cases o' <;> rfl, hz, rfl, ?_, fun o' => by cases o' <;> rfl⟩
      simp [Op.recorded, copyFirst, h0]
  | paste => exact absurd trivial hlast

/-- With the last corner the operation starts, and nothing waits any more. -/
theorem pointed_alone_last (h : o.Alone t) (hlast : o.Last t) :
    Unplaced (pointed p b t) ∧ o.corners (pointed p b t) = o.recorded t ++ [p] ∧
      ∀ o' : Op, o' ≠ o → o'.start (pointed p b t) = o'.start t := by
  have hothers := place_of_alone h
  -- each operation with its own flags: it has its corners now, and the others have not moved
  cases o with
  | cuboid =>
      have h1 : t.points = 1 := hlast
      rw [pointed_of_alone_cuboid h, cuboidPointed_second p b h.1 h1]
      refine ⟨⟨rfl, fun o' => ?_⟩, ?_, fun o' hne => ?_⟩
      · cases o' with
        | cuboid => rfl
        | copy => exact hothers .copy (by decide)
        | paste => exact hothers .paste (by decide)
      · simp [Op.recorded, Op.corners, Cuboid.corners, cuboidSecond, h1]
      · cases o' with
        | cuboid => exact absurd rfl hne
        | copy => rfl
        | paste => rfl
  | copy =>
      have h1 : t.points = 1 := hlast
      rw [pointed_of_alone_copy h, copyPointed_second p h.1 h1]
      refine ⟨⟨rfl, fun o' => ?_⟩, ?_, fun o' hne => ?_⟩
      · cases o' with
        | cuboid => exact hothers .cuboid (by decide)
        | copy => rfl
        | paste => exact hothers .paste (by decide)
      · simp [Op.recorded, Op.corners, Copy.corners, copySecond, h1]
      · cases o' with
        | cuboid => rfl
        | copy => exact absurd rfl hne
        | paste => rfl
  | paste =>
      rw [pointed_of_alone_paste h]
      refine ⟨⟨rfl, fun o' => ?_⟩, rfl, fun o' hne => ?_⟩
      · cases o' with
        | cuboid => exact hothers .cuboid (by decide)
        | copy => exact hothers .copy (by decide)
        | paste => rfl
      · cases o' with
        | cuboid => rfl
        | copy => rfl
        | paste => exact absurd rfl hne

/-- The books after a click for an operation that waits alone. -/
theorem PlaceInv.click (hinv : PlaceInv t r) (h : o.Alone t) :
    PlaceInv (pointed p b t) (fun o' => r o' ++ [p]) := by
  by_cases hlast : o.Last t
  · exact (pointed_alone_last h hlast).1.inv _
  · obtain ⟨halone, hz, hpoints, hrecorded, -⟩ := pointed_alone_first (p := p) (b := b) h hinv hlast
    refine ⟨iff_of_true hz ⟨o, halone.1⟩, fun _ => Or.inr hpoints, fun o' ho' => ?_⟩
    obtain rfl : o' = o := halone.2 o' ho'.1
    rw [hrecorded, hinv.recorded o' h]

/-- The books do not look at the start flags. -/
theorem PlaceInv.unstarted (hinv : PlaceInv t r) : PlaceInv (unstarted t) r := by
  have hplace : ∀ o : Op, o.place t = o.place (LavaTunnel.unstarted t) := fun o => by cases o <;> rfl
  refine ⟨?_, hinv.points, fun o ho => ?_⟩
  · refine hinv.flag.trans (exists_congr fun o => ?_)
    rw [hplace o]
  · rw [hinv.recorded o (ho.congr hplace)]
    cases o <;> rfl

/-- What a click starts has the corners of the books. -/
theorem corners_of_startedBy (hinv : PlaceInv t r) (h : o.Alone t) (hlen : payload.length = 8) {o' : Op}
    (hstart : o'.StartedBy env payload t) :
    o'.corners (clicked env payload t) = r o' ++ [clickPoint payload] := by
  have hz : t.zPlace = true := hinv.flag.mpr ⟨o, h.1⟩
  have halone : o.Alone (unstarted t) := h.congr fun o' => by cases o' <;> rfl
  have hdown : ∀ o' : Op, o'.start (unstarted t) = false := fun o' => by cases o' <;> rfl
  unfold Op.StartedBy at hstart
  rw [clicked_of_zPlace env hlen (t := unstarted t) hz] at hstart
  rw [clicked_of_zPlace env hlen hz]
  -- the last corner starts its own operation and no other one
  by_cases hlast : o.Last t
  · have hlast' : o.Last (unstarted t) := by cases o <;> exact hlast
    have hother := (pointed_alone_last (p := clickPoint payload) (b := byte (field payload 7 1)) halone
      hlast').2.2 o'
    obtain rfl : o' = o := by
      by_contra hne
      rw [hother hne, hdown] at hstart
      exact absurd hstart (by decide)
    rw [(pointed_alone_last h hlast).2.1, hinv.recorded o' h]
  · -- a first corner starts nothing
    have hlast' : ¬ o.Last (unstarted t) := by cases o <;> exact hlast
    have hnone := (pointed_alone_first (p := clickPoint payload) (b := byte (field payload 7 1)) halone
      hinv.unstarted hlast').2.2.2.2 o'
    rw [hnone, hdown] at hstart
    exact absurd hstart (by decide)

/-- A click while nothing waits starts nothing. -/
theorem not_startedBy (hz : t.zPlace = false) (hlen : payload.length = 8) : ¬ o.StartedBy env payload t := by
  unfold Op.StartedBy
  rw [clicked_of_not_zPlace env hlen (t := unstarted t) hz]
  cases o <;> exact Bool.false_ne_true

end Clicks

/-! ## A step -/

section Step

variable {env : Env} {t : Tunnel} {r : Clicks}

/-- The books after a request: the requested operation has no corners yet. -/
theorem PlaceInv.request {t' : Tunnel} {o : Op} (hinv : PlaceInv t r) (hplace : o.place t' = true)
    (hothers : ∀ o' : Op, o' ≠ o → o'.place t' = o'.place t) (hz : t'.zPlace = true)
    (hpoints : t'.points = 0 ∨ o = .paste ∧ t'.points = t.points) : PlaceInv t' (Function.update r o []) := by
  refine ⟨iff_of_true hz ⟨o, hplace⟩, fun h => ?_, fun o' ho' => ?_⟩
  · rcases hpoints with h0 | ⟨rfl, hsame⟩
    · exact Or.inl h0
    · rw [hsame]
      exact hinv.points (h.imp (hothers .cuboid (by decide)).symm.trans (hothers .copy (by decide)).symm.trans)
  · obtain rfl : o = o' := ho'.2 o hplace
    rw [Function.update_self]
    rcases hpoints with h0 | ⟨rfl, -⟩
    · cases o with
      | cuboid => exact (if_pos h0).symm
      | copy => exact (if_pos h0).symm
      | paste => rfl
    · rfl

variable (env) in
/-- **A step**: it does what it should just if it comes at a good moment, and then the books stay straight. -/
theorem PlaceEvent.placed_iff (hinv : PlaceInv t r) (e : PlaceEvent) :
    (e.Placed env t r ↔ e.Orderly t) ∧ (e.Orderly t → PlaceInv (e.step env t) (e.clicks r)) := by
  cases e with
  | z text h =>
      have hnext : PlaceInv (commanded env text t) (Function.update r .cuboid []) := by
        rw [commanded_z env t h]
        refine hinv.request rfl (fun o' hne => ?_) rfl (Or.inl rfl)
        cases o' with
        | cuboid => exact absurd rfl hne
        | copy => rfl
        | paste => rfl
      exact ⟨iff_of_true ⟨hnext.flag, trivial⟩ trivial, fun _ => hnext⟩
  | copy text h =>
      have hnext : PlaceInv (commanded env text t) ((PlaceEvent.copy text h).clicks r) := by
        rw [commanded_copy env t h]
        show PlaceInv _ (if arg1 text = none then r else Function.update r .copy [])
        cases arg1 text with
        | none =>
            rw [if_pos rfl]
            exact hinv
        | some name =>
            rw [if_neg (Option.some_ne_none name)]
            refine hinv.request rfl (fun o' hne => ?_) rfl (Or.inl rfl)
            cases o' with
            | cuboid => rfl
            | copy => exact absurd rfl hne
            | paste => rfl
      exact ⟨iff_of_true ⟨hnext.flag, trivial⟩ trivial, fun _ => hnext⟩
  | paste text h =>
      have hnext : PlaceInv (commanded env text t) ((PlaceEvent.paste text h).clicks r) := by
        rw [commanded_paste env t h]
        show PlaceInv _ (if arg1 text = none then r else Function.update r .paste [])
        cases arg1 text with
        | none =>
            rw [if_pos rfl]
            exact hinv
        | some name =>
            rw [if_neg (Option.some_ne_none name)]
            refine hinv.request rfl (fun o' hne => ?_) rfl (Or.inr ⟨rfl, rfl⟩)
            cases o' with
            | cuboid => rfl
            | copy => rfl
            | paste => exact absurd rfl hne
      exact ⟨iff_of_true ⟨hnext.flag, trivial⟩ trivial, fun _ => hnext⟩
  | cancel =>
      have hnext : t.cuboid.place = false → Unplaced (commanded env (ascii "cancel") t) :=
        (unplaced_cancel_iff env t).mpr
      refine ⟨⟨fun h => ?_, fun h => ⟨(hnext h).flagged, trivial⟩⟩, fun h => (hnext h).inv r⟩
      show t.cuboid.place = false
      by_contra hplace
      rw [Bool.not_eq_false] at hplace
      have hup : (commanded env (ascii "cancel") t).zPlace = true :=
        h.1.mpr ⟨.cuboid, (cuboid_place_cancel env t).trans hplace⟩
      rw [commanded_cancel] at hup
      exact absurd hup Bool.false_ne_true
  | click payload h =>
      -- each operation that waits records the click, so there may be one at most
      have honce : (∀ o o' : Op, o.Records env payload t → o'.Records env payload t → o = o') ↔
          ∀ o o' : Op, o.place t = true → o'.place t = true → o = o' := by
        refine forall₂_congr fun o o' => ?_
        rw [records_iff hinv h, records_iff hinv h]
      cases hz : t.zPlace with
      | false =>
          have hnone : ∀ o : Op, o.place t ≠ true := fun o ho => by
            have hup := hinv.flag.mpr ⟨o, ho⟩
            rw [hz] at hup
            exact absurd hup (by decide)
          have hsame : (PlaceEvent.click payload h).step env t = t := clicked_of_not_zPlace env h hz
          have horderly : (PlaceEvent.click payload h).Orderly t := fun o _ ho => absurd ho (hnone o)
          refine ⟨iff_of_true ⟨?_, fun o ho => absurd ho (not_startedBy hz h), honce.mpr horderly⟩ horderly,
            fun _ => ?_⟩
          · rw [hsame]
            exact hinv.flag
          · rw [hsame]
            exact ⟨hinv.flag, hinv.points, fun o ho => absurd ho.1 (hnone o)⟩
      | true =>
          obtain ⟨o, ho⟩ := hinv.flag.mp hz
          have hnext : (PlaceEvent.click payload h).Orderly t →
              PlaceInv (clicked env payload t) ((PlaceEvent.click payload h).clicks r) := by
            intro horderly
            rw [clicked_of_zPlace env h hz]
            exact hinv.click (o := o) ⟨ho, fun o' ho' => horderly o' o ho' ho⟩
          refine ⟨⟨fun hplaced => honce.mp hplaced.2.once, fun horderly => ⟨(hnext horderly).flag, ?_, ?_⟩⟩, hnext⟩
          · exact fun o' ho' => corners_of_startedBy hinv ⟨ho, fun o' ho' => horderly o' o ho' ho⟩ h ho'
          · exact honce.mpr horderly

end Step

/-! ## The run -/

/-- **Placement.** From a state in which nothing waits, a run of commands and clicks does what it should just
    if each of its events comes at a good moment. -/
theorem placed_iff_orderly (env : Env) {t : Tunnel} (h : Unplaced t) (es : List PlaceEvent) :
    Placed env es t (fun _ => []) ↔ Orderly env es t := by
  have hrun : ∀ {t : Tunnel} {r : Clicks}, PlaceInv t r → (Placed env es t r ↔ Orderly env es t) := by
    induction es with
    | nil => exact fun _ => Iff.rfl
    | cons e es ih =>
        intro t r hinv
        obtain ⟨hstep, hnext⟩ := PlaceEvent.placed_iff env hinv e
        constructor
        · rintro ⟨he, hes⟩
          exact ⟨hstep.mp he, (ih (hnext (hstep.mp he))).mp hes⟩
        · rintro ⟨he, hes⟩
          exact ⟨hstep.mpr he, (ih (hnext he)).mpr hes⟩
  exact hrun (h.inv _)

/-- A cuboid of two clicks. -/
theorem placed_iff_orderly_cuboid :
    Unplaced {} ∧ (Placed {} [.z (ascii "z stone") rfl, .click [0, 1, 0, 2, 0, 3, 1, 1] rfl,
        .click [0, 4, 0, 5, 0, 6, 1, 1] rfl] {} (fun _ => []) ↔
      Orderly {} [.z (ascii "z stone") rfl, .click [0, 1, 0, 2, 0, 3, 1, 1] rfl,
        .click [0, 4, 0, 5, 0, 6, 1, 1] rfl] {}) :=
  ⟨⟨rfl, fun o => by cases o <;> rfl⟩, placed_iff_orderly {} ⟨rfl, fun o => by cases o <;> rfl⟩ _⟩

/-- `cancel` leaves the cuboid waiting. -/
theorem not_placed_cancel :
    ¬ ∀ (env : Env) (t : Tunnel) (es : List PlaceEvent), Unplaced t → Placed env es t (fun _ => []) := by
  intro h
  have hrun := h {} {} [.z (ascii "z stone") rfl, .cancel] ⟨rfl, fun o => by cases o <;> rfl⟩
  have hflag : Flagged (commanded {} (ascii "cancel") (commanded {} (ascii "z stone") {})) := hrun.2.1.1
  have hplace : (commanded {} (ascii "cancel") (commanded {} (ascii "z stone") {})).cuboid.place = true := by
    rw [commanded_cancel, commanded_z {} {} (show arg0 (ascii "z stone") = some (ascii "z") from rfl)]
    rfl
  have hz : (commanded {} (ascii "cancel") (commanded {} (ascii "z stone") {})).zPlace = true :=
    hflag.mpr ⟨.cuboid, hplace⟩
  rw [commanded_cancel] at hz
  exact absurd hz (by decide)

end LavaTunnel
