import LavaTunnel.Wire.Framed

/-!
# `Wire.Calls` — a turn is a run of calls

The threads of a `System` run a call at a time (`System.exec`), or a round at a time (`System.turns`). The second
level is the first one under a scheduler that lets a thread finish its round: every run of turns is a run of calls,
and a quiet one, with the same state and the same streams. What holds of all runs of calls so holds of the runs of
turns, and what a run of turns comes to, some run of calls comes to.

A thread must not take back what has started it; `Started` says so.
-/

namespace Wire

open Prog

section Calls

variable {τ σ S L : Type} [DecidableEq τ] [DecidableEq S]

/-- A run of calls in two parts. -/
theorem exec_append (sys : System τ σ S L) (c : Config τ σ S L) (xs ys : List (τ × Option Bytes)) :
    sys.exec c (xs ++ ys) = sys.exec (sys.exec c xs) ys := List.foldl_append

theorem quietRun_append {sys : System τ σ S L} {c : Config τ σ S L} {xs ys : List (τ × Option Bytes)}
    (hxs : QuietRun sys c xs) (hys : QuietRun sys (sys.exec c xs) ys) : QuietRun sys c (xs ++ ys) := by
  induction xs generalizing c with
  | nil => exact hys
  | cons e xs ih => exact ⟨hxs.1, ih hxs.2 hys⟩

/-! ## The calls of one thread -/

/-- What thread `i` has made of a configuration: where it stands, the state, and the bytes it has written. -/
def Config.moved (c : Config τ σ S L) (i : τ) (th : Thread σ S L) (t : σ) (out : S → Bytes) : Config τ σ S L where
  state := t
  thread := Function.update c.thread i th
  stream s := c.stream s ++ tag i (out s)

/-- An update does not take back what has started thread `i`. -/
def Started (sys : System τ σ S L) (i : τ) (t t' : σ) : Prop :=
  sys.started i t = true → sys.started i t' = true

variable {sys : System τ σ S L} {c : Config τ σ S L} {i : τ} {t : σ} {out : S → Bytes}

/-- One call of a thread that has been started. -/
theorem step_moved (h : sys.started i t = true) (th : Thread σ S L) (r : Option Bytes) :
    sys.step (c.moved i th t out) i r = c.moved i (th.act (sys.body i) r t).1 (th.act (sys.body i) r t).2.1
      (fun s => out s ++ match (th.act (sys.body i) r t).2.2 with
        | some (s', bs) => if s' = s then bs else []
        | none => []) := by
  have hthread : (c.moved i th t out).thread i = th := Function.update_self _ _ _
  unfold System.step
  rw [if_pos (show sys.started i (c.moved i th t out).state = true from h), hthread]
  have hact : th.act (sys.body i) r (c.moved i th t out).state = th.act (sys.body i) r t := rfl
  rw [hact]
  generalize th.act (sys.body i) r t = a
  obtain ⟨th', t', w⟩ := a
  show Config.mk t' (Function.update (Function.update c.thread i th) i th') _ = Config.mk t' _ _
  rw [Function.update_idem]
  refine congrArg (Config.mk t' _) (funext fun s => ?_)
  show (c.stream s ++ tag i (out s)) ++ _ = c.stream s ++ tag i (out s ++ _)
  rw [List.append_assoc, tag_append]
  refine congrArg (c.stream s ++ ·) (congrArg (tag i (out s) ++ ·) ?_)
  cases w with
  | none => rfl
  | some p =>
      obtain ⟨s', bs⟩ := p
      exact (apply_ite (tag i) (s' = s) bs []).symm

/-- The rest of a packet is written call by call. -/
theorem calls_mid (h : sys.started i t = true) (s : S) (k : Prog σ S L) (calls : List Call) (out : S → Bytes) :
    ∃ rs : List (Option Bytes), sys.exec (c.moved i ⟨k, mid s calls⟩ t out) (rs.map (fun r => (i, r))) =
      c.moved i ⟨k, none⟩ t (fun s' => out s' ++ if s = s' then calls.flatMap Call.bytes else []) := by
  induction calls generalizing out with
  | nil => exact ⟨[], by simp [mid, System.exec]⟩
  | cons call rest ih =>
      obtain ⟨rs, hrest⟩ := ih (fun s' => out s' ++ if s = s' then call.bytes else [])
      refine ⟨none :: rs, ?_⟩
      have hfirst : sys.step (c.moved i ⟨k, mid s (call :: rest)⟩ t out) i none =
          c.moved i ⟨k, mid s rest⟩ t (fun s' => out s' ++ if s = s' then call.bytes else []) := step_moved h _ _
      show sys.exec (sys.step _ i none) _ = _
      rw [hfirst]
      refine hrest.trans (congrArg (c.moved i ⟨k, none⟩ t) (funext fun s' => ?_))
      by_cases hs : s = s'
      · simp [hs]
      · simp [hs]

/-- Where a thread stands after its round. -/
def Thread.after : Option L → Thread σ S L
  | some l => ⟨.ret l, none⟩
  | none => ⟨.exit, none⟩

/-- A call that writes nothing. -/
theorem step_silent (h : sys.started i t = true) (th : Thread σ S L) (r : Option Bytes)
    (hsilent : (th.act (sys.body i) r t).2.2 = none) :
    sys.step (c.moved i th t out) i r =
      c.moved i (th.act (sys.body i) r t).1 (th.act (sys.body i) r t).2.1 out := by
  rw [step_moved h th r, hsilent]
  exact congrArg (c.moved i _ _) (funext fun s => List.append_nil (out s))

/-- **The code of a round** is run call by call. -/
theorem calls_code {P : S → Bytes → Prop} {p : Prog σ S L} (hp : p.Framed (Started sys i) id P)
    (h : sys.started i t = true) (input : Bytes) (out : S → Bytes) :
    ∃ rs : List (Option Bytes), sys.exec (c.moved i ⟨p, none⟩ t out) (rs.map (fun r => (i, r))) =
      c.moved i (Thread.after (p.run input t).result) (p.run input t).state
        (fun s => out s ++ stream s (p.run input t).out) := by
  -- along the code: its first call, and the calls of the rest
  induction p generalizing input t out with
  | ret l => exact ⟨[], congrArg (c.moved i _ _) (funext fun s => (List.append_nil (out s)).symm)⟩
  | recv n k ih =>
      obtain ⟨rs, hrest⟩ := ih (some (input.take n)) (hp _) h (input.drop n) out
      have htake : (some (input.take n)).map (·.take n) = some (input.take n) :=
        congrArg some (List.take_of_length_le (List.length_take_le n input))
      have hfirst : sys.step (c.moved i ⟨.recv n k, none⟩ t out) i (some (input.take n)) =
          c.moved i ⟨k ((some (input.take n)).map (·.take n)), none⟩ t out := step_silent h _ _ rfl
      rw [htake] at hfirst
      refine ⟨some (input.take n) :: rs, ?_⟩
      show sys.exec (sys.step _ i _) _ = _
      rw [hfirst]
      exact hrest
  | emit s calls k ih =>
      -- the first call, the rest of the packet, and the calls after it
      obtain ⟨rs, hrest⟩ := ih hp.2 h input (fun s' => out s' ++ if s = s' then calls.flatMap Call.bytes else [])
      have hout : (fun s' => (out s' ++ if s = s' then calls.flatMap Call.bytes else []) ++
          stream s' (k.run input t).out) = fun s' => out s' ++ stream s' (written s calls ++ (k.run input t).out) := by
        funext s'
        rw [List.append_assoc, stream_append]
        by_cases hs : s = s'
        · rw [if_pos hs, hs, stream_written]
        · rw [if_neg hs, stream_written_ne hs]
      rw [hout] at hrest
      cases calls with
      | nil =>
          have hfirst : sys.step (c.moved i ⟨.emit s [] k, none⟩ t out) i none = c.moved i ⟨k, none⟩ t out :=
            step_silent h _ _ rfl
          have hnone : (fun s' => out s' ++ if s = s' then ([] : List Call).flatMap Call.bytes else []) = out :=
            funext fun s' => by simp
          rw [hnone] at hrest
          refine ⟨none :: rs, ?_⟩
          show sys.exec (sys.step _ i _) _ = _
          rw [hfirst]
          exact hrest
      | cons call rest =>
          obtain ⟨mids, hmids⟩ := calls_mid (c := c) h s k rest (fun s' => out s' ++ if s = s' then call.bytes else [])
          have hfirst : sys.step (c.moved i ⟨.emit s (call :: rest) k, none⟩ t out) i none =
              c.moved i ⟨k, mid s rest⟩ t (fun s' => out s' ++ if s = s' then call.bytes else []) := step_moved h _ _
          refine ⟨none :: (mids ++ rs), ?_⟩
          show sys.exec (sys.step _ i _) _ = _
          rw [hfirst, List.map_append, exec_append, hmids]
          refine (congrArg (fun o => sys.exec (c.moved i ⟨k, none⟩ t o) _) (funext fun s' => ?_)).trans hrest
          by_cases hs : s = s'
          · simp [hs]
          · simp [hs]
  | get k ih =>
      obtain ⟨rs, hrest⟩ := ih t (hp t).2 h input out
      have hfirst : sys.step (c.moved i ⟨.get k, none⟩ t out) i none = c.moved i ⟨k t, none⟩ t out :=
        step_silent h _ _ rfl
      refine ⟨none :: rs, ?_⟩
      show sys.exec (sys.step _ i _) _ = _
      rw [hfirst]
      exact hrest
  | modify f k ih =>
      obtain ⟨rs, hrest⟩ := ih hp.2 ((hp.1 t).1 h) input out
      have hfirst : sys.step (c.moved i ⟨.modify f k, none⟩ t out) i none = c.moved i ⟨k, none⟩ (f t) out :=
        step_silent h _ _ rfl
      refine ⟨none :: rs, ?_⟩
      show sys.exec (sys.step _ i _) _ = _
      rw [hfirst]
      exact hrest
  | exit => exact ⟨[], congrArg (c.moved i _ _) (funext fun s => (List.append_nil (out s)).symm)⟩

/-! ## A turn -/

/-- The configuration that a moment of a run of turns is: no thread is in the middle of its round. -/
structure Between (c : Turns τ σ S L) (d : Config τ σ S L) : Prop where
  state : d.state = c.state
  stream : ∀ s, (d.stream s).map Prod.snd = (sentTo s c.sent).flatten
  threads : c.ended = false → ∀ i, d.thread i = ⟨.ret (c.locals i), none⟩

omit [DecidableEq S] in
/-- A thread that has done nothing yet. -/
theorem moved_self (d : Config τ σ S L) (i : τ) : d.moved i (d.thread i) d.state (fun _ => []) = d := by
  unfold Config.moved
  rw [Function.update_eq_self]
  simp [tag]

omit [DecidableEq τ] [DecidableEq S] in
theorem map_tag (i : τ) (bs : Bytes) : (tag i bs).map Prod.snd = bs := by
  unfold tag
  rw [List.map_map]
  exact List.map_id bs

/-- **A turn is a run of calls** that nobody disturbs. -/
theorem turn_calls {P : S → Bytes → Prop} (hbody : ∀ i l, (sys.body i l).Framed (Started sys i) id P)
    {c : Turns τ σ S L} {d : Config τ σ S L} (h : Between c d) (i : τ) (input : Bytes) :
    ∃ calls, QuietRun sys d calls ∧ Between (sys.turn c i input) (sys.exec d calls) := by
  by_cases hturn : c.ended = false ∧ sys.started i c.state = true
  · have hthreads := h.threads hturn.1
    have hstarted : sys.started i d.state = true := by
      rw [h.state]
      exact hturn.2
    obtain ⟨rs, hcode⟩ := calls_code (c := d) (hbody i (c.locals i)) hstarted input (fun _ => [])
    have hfirst : sys.step d i none = d.moved i ⟨sys.body i (c.locals i), none⟩ d.state (fun _ => []) := by
      have hsilent : sys.step (d.moved i ⟨.ret (c.locals i), none⟩ d.state (fun _ => [])) i none =
          d.moved i ⟨sys.body i (c.locals i), none⟩ d.state (fun _ => []) := step_silent hstarted _ _ rfl
      rw [← hthreads i, moved_self] at hsilent
      exact hsilent
    have hexec : sys.exec d ((none :: rs).map (fun r => (i, r))) =
        d.moved i (Thread.after ((sys.body i (c.locals i)).run input c.state).result)
          ((sys.body i (c.locals i)).run input c.state).state
          (fun s => stream s ((sys.body i (c.locals i)).run input c.state).out) := by
      rw [← h.state]
      show sys.exec (sys.step d i none) _ = _
      rw [hfirst, hcode]
      rfl
    refine ⟨(none :: rs).map (fun r => (i, r)), quietRun_alone (fun j _ => by rw [hthreads j]) (none :: rs), ?_⟩
    rw [hexec]
    have hdoes := turn_does input hturn
    refine ⟨hdoes.1.symm, fun s => ?_, fun hgoes j => ?_⟩
    · show ((d.stream s) ++ tag i (stream s _)).map Prod.snd = _
      rw [List.map_append, h.stream s, map_tag, hdoes.2, sentTo_append, List.flatten_append, stream_run]
    · cases hresult : ((sys.body i (c.locals i)).run input c.state).result with
      | none => exact absurd ((turn_none hturn hresult).symm.trans hgoes) (by decide)
      | some l' =>
          rw [turn_some hturn hresult]
          show Function.update d.thread i (Thread.after (some l')) j = ⟨.ret (Function.update c.locals i l' j), none⟩
          by_cases hj : j = i
          · subst hj
            rw [Function.update_self, Function.update_self]
            rfl
          · rw [Function.update_of_ne hj, Function.update_of_ne hj]
            exact hthreads j
  · rw [turn_of_not hturn]
    exact ⟨[], trivial, h⟩

/-- **Every run of turns is a quiet run of calls**, with the same state and the same streams. -/
theorem turns_calls {P : S → Bytes → Prop} (hbody : ∀ i l, (sys.body i l).Framed (Started sys i) id P)
    {c : Turns τ σ S L} {d : Config τ σ S L} (h : Between c d) (sched : List (τ × Bytes)) :
    ∃ calls, QuietRun sys d calls ∧ Between (sys.turns c sched) (sys.exec d calls) := by
  induction sched generalizing c d with
  | nil => exact ⟨[], trivial, h⟩
  | cons e sched ih =>
      obtain ⟨calls, hquiet, hturn⟩ := turn_calls hbody h e.1 e.2
      obtain ⟨calls', hquiet', hrest⟩ := ih hturn
      refine ⟨calls ++ calls', quietRun_append hquiet hquiet', ?_⟩
      rw [exec_append]
      exact hrest

end Calls

end Wire
