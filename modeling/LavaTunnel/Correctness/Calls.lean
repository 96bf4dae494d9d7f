import LavaTunnel.Correctness.Activity
import LavaTunnel.Wire.Calls

/-!
# `LavaTunnel.Correctness.Calls` — turns and calls

The threads of the tunnel share their sockets a call at a time. The results on whole runs are about threads that take
turns, a round each. `turns_are_calls` connects the two: what a run of turns comes to, some run of calls comes to, in
which no thread writes into another one's packet.
-/

namespace LavaTunnel

open Wire Wire.Prog

section Rounds

variable {env : Env}

/-- A thread that is always started. -/
theorem started_always {i : ThreadId} (h : ∀ t, (tunnel env).started i t = true) (c : Code Locals) :
    c.Framed (Started (tunnel env) i) id fun _ _ => True := by
  have hstarted : ∀ t t', True → Started (tunnel env) i t t' := fun _ t' _ _ => h t'
  exact (Framed.any c).mono hstarted fun _ _ => id

/-- A thread that is started by the login, and does not take it back. -/
theorem started_of_loggedIn {i : ThreadId} (h : ∀ t, (tunnel env).started i t = t.loggedIn) {R : Tunnel → Tunnel → Prop}
    {blur : Tunnel → Tunnel} {P : Socket → Bytes → Prop} (hR : ∀ t t', R t t' → t'.loggedIn = t.loggedIn) {α : Type}
    {c : Code α} (hc : c.Framed R blur P) : c.Framed (Started (tunnel env) i) id fun _ _ => True := by
  refine hc.unblur.mono (fun t t' hframe hstarted => ?_) (fun _ _ _ => trivial)
  rw [h, hR t t' hframe, ← h]
  exact hstarted

/-- **Nobody takes back** what has started a thread. -/
theorem started_round (i : ThreadId) (l : Locals) :
    (round env i l).Framed (Started (tunnel env) i) id fun _ _ => True := by
  have hsame : ∀ i, (pure l : Code Locals).Framed (Started (tunnel env) i) id fun _ _ => True := fun _ => trivial
  cases i with
  | main => exact started_always (fun _ => rfl) _
  | tunnelServer => exact started_always (fun _ => rfl) _
  | mcConnect =>
      cases l with
      | connecting =>
          refine Framed.bind (Framed.getState_bind (fun _ => rfl) fun t => ?_) fun _ => Framed.pure _
          exact Framed.bind (Framed.update (fun _ => id) (fun _ => rfl)) fun _ => Framed.packet trivial
      | mcConnect l =>
          refine Framed.bind (started_of_loggedIn (fun _ => rfl) (fun t t' h => ?_) (turns_mcConnect env l))
            fun _ => Framed.pure _
          have hsame : t'.besidesServer.loggedIn = t.besidesServer.loggedIn := by rw [h.1]
          exact hsame
      | _ => exact hsame _
  | builder =>
      cases l with
      | builder pc =>
          refine Framed.bind (started_of_loggedIn (fun _ => rfl) (fun t t' h => ?_) (builds_builder env pc))
            fun _ => Framed.pure _
          have hsame : t'.besidesBuilder.loggedIn = t.besidesBuilder.loggedIn := by rw [h.besides]
          exact hsame
      | _ => exact hsame _

end Rounds

/-- **Turns and calls.** For every run of the four threads in turns there is a run in which they make one call after
    another, from the start of the program: no thread writes into a packet of another one, the state is the same, and
    so are the bytes that have been written to each socket. -/
theorem turns_are_calls (env : Env) (t : Tunnel) (sched : List (ThreadId × Bytes)) :
    ∃ calls, QuietRun (tunnel env) (start t) calls ∧
      ((tunnel env).exec (start t) calls).state = ((tunnel env).turns (beginning t) sched).state ∧
      ∀ s, (((tunnel env).exec (start t) calls).stream s).map Prod.snd =
        (sentTo s ((tunnel env).turns (beginning t) sched).sent).flatten := by
  have hstart : Between (beginning t) (start t) := by
    refine ⟨rfl, fun _ => rfl, fun _ i => ?_⟩
    cases i with
    | _ => rfl
  obtain ⟨calls, hquiet, hbetween⟩ := turns_calls started_round hstart sched
  exact ⟨calls, hquiet, hbetween.state, hbetween.stream⟩

end LavaTunnel
