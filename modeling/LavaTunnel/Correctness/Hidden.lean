import LavaTunnel.Correctness.Handlers
import LavaTunnel.Wire.Covert

/-!
# `LavaTunnel.Correctness.Hidden` — hidden means hidden

While the user is hidden his position goes into fields of `user` that no thread reads. But it stays in the variables
it has been received into as well, and an incomplete position takes from them what has not arrived. So two runs that
differ only in positions that arrive while `hide` is on write the same to the server, whatever the other threads do in
between, at every call, as long as no incomplete position shows what an earlier one has left.
-/

namespace LavaTunnel

open Wire Wire.Prog

/-! ## The coordinates of a position -/

namespace Server

/-- What becomes of a position packet behind the player id. -/
def coordinates (env : Env) (pid : Bytes) : Code Unit := do
  let x ← recvVarW (env.held.var 1) 2
  let y ← recvVarW (env.held.var 2) 2
  let z ← recvVarW (env.held.var 3) 2
  let yaw ← recvVarW (env.held.var 4) 1
  let pitch ← recvVarW (env.held.var 5) 1
  let t ← getState
  if t.hide = false then
    update (fun t => { t with user := { t.user with
      x := (host x).toInt16, y := (host y).toInt16, z := (host z).toInt16
      yaw := byte yaw, pitch := byte pitch } })
    packet tunnelSock [.sendW [0x08], .sendW pid, .sendW x, .sendW y, .sendW z, .sendW yaw, .sendW pitch]
  else
    update (fun t => { t with user := { t.user with
      hx := (host x).toInt16, hy := (host y).toInt16, hz := (host z).toInt16
      hyaw := byte yaw, hpitch := byte pitch } })

theorem posUpdate_eq (env : Env) :
    posUpdate env = (do let pid ← recvVarW env.held 1; coordinates env pid) := rfl

end Server

/-- The rest of a round of `tunnelServer` that has received the id and the player of a position. -/
def coordinatesRound (env : Env) (pid : Bytes) (l : ServerLocals) : Code Locals := do
  let l' ← (do
    Server.coordinates env pid
    pure l)
  pure (.tunnelServer l')

/-- In both runs the thread is receiving the coordinates and the orientation of a position. -/
def AtCoordinates (code code' : Code Locals) : Prop :=
  ∃ env env' pid pid' l, Receiving (coordinatesRound env pid l) (coordinatesRound env' pid' l) code code'

/-- The user is hidden. -/
def Hiding (t : Tunnel) : Prop := t.hide = true

/-! ## Different coordinates -/

section Twins

variable {α : Type} (env env' : Env) {n : Nat}

theorem twins_recvWLoop (fuel : Nat) {buffer buffer' : Bytes} (hlen : buffer.length = buffer'.length)
    {f f' : Int × Bytes → Code α}
    (h : ∀ r r' : Int × Bytes, r.1 = r'.1 → r.2.length = r'.2.length → Twins Tunnel.read Hiding (f r) (f' r')) :
    Twins Tunnel.read Hiding (recvWLoop fuel n buffer >>= f) (recvWLoop fuel n buffer' >>= f') := by
  -- the two loops get as many bytes from every call, so they stop together
  induction fuel generalizing buffer buffer' with
  | zero => exact h _ _ (congrArg Int.ofNat hlen) hlen
  | succ fuel ih =>
      unfold recvWLoop
      rw [← hlen]
      split
      · -- both calls receive the same number of bytes
        rw [bind_assoc', bind_assoc']
        refine Twins.recvCall_bind fun r r' hr => ?_
        cases r with
        | none =>
            cases r' with
            | none => exact h _ _ rfl hlen
            | some bs' => exact absurd hr (by simp)
        | some bs =>
            cases r' with
            | none => exact absurd hr (by simp)
            | some bs' =>
                have hbs : bs.length = bs'.length := by simpa using hr
                cases bs with
                | nil =>
                    obtain rfl : bs' = [] := List.eq_nil_of_length_eq_zero hbs.symm
                    exact h _ _ rfl hlen
                | cons b bs =>
                    cases bs' with
                    | nil => exact absurd hbs (by simp)
                    | cons b' bs' => exact ih (by rw [List.length_append, List.length_append, hlen, hbs])
      · exact h _ _ rfl hlen

theorem twins_recvVarW {f f' : Bytes → Code α} (h : ∀ v v', Twins Tunnel.read Hiding (f v) (f' v')) :
    Twins Tunnel.read Hiding (recvVarW env n >>= f) (recvVarW env' n >>= f') := by
  unfold recvVarW
  rw [bind_assoc', bind_assoc']
  exact twins_recvWLoop n rfl fun r r' _ _ => h _ _

/-- **Hidden coordinates go nowhere.** -/
theorem twins_coordinates (pid pid' : Bytes) (l : ServerLocals) :
    Twins Tunnel.read Hiding (coordinatesRound env pid l) (coordinatesRound env' pid' l) := by
  unfold coordinatesRound Server.coordinates
  simp only [bind_assoc']
  refine twins_recvVarW _ _ fun x x' => twins_recvVarW _ _ fun y y' => twins_recvVarW _ _ fun z z' =>
    twins_recvVarW _ _ fun yaw yaw' => twins_recvVarW _ _ fun pitch pitch' => ?_
  refine Twins.getState_bind fun t t' hread hhide => ?_
  have hhide' : t'.hide = true := by
    rw [show t'.hide = t.hide from (congrArg Tunnel.hide hread).symm]
    exact hhide
  rw [if_neg (by rw [show t.hide = true from hhide]; decide), if_neg (by rw [hhide']; decide)]
  exact Twins.update_bind (fun _ => rfl) (fun _ => rfl) rfl

end Twins

/-! ## Different memories -/

/-- The same, with other contents of the variables of a position. -/
def Env.recall (env : Env) (position : Nat → Nat → UInt8) : Env := { env with position := position }

/-- Memories that differ only in the variables of a position. -/
def SameButPosition (env env' : Env) : Prop := env' = env.recall env'.position

namespace Server

variable {env : Env} {position : Nat → Nat → UInt8}

theorem lookup_handlers_recall {id : UInt8} (h : id ≠ 0x08) :
    (handlers (env.recall position)).lookup id = (handlers env).lookup id := by
  -- the other handlers are the same, word by word
  have hbefore : relays.map (fun r => (r.id, relay (env.recall position) tunnelSock r)) =
      relays.map (fun r => (r.id, relay env tunnelSock r)) := rfl
  have hclick : setBlockClick (env.recall position) = setBlockClick env := rfl
  have hbehind : ([(0x0d, chatMessage (env.recall position)), (0x10, extInfo (env.recall position)),
      (0x11, extEntry (env.recall position)), (0x15, textHotKey (env.recall position)),
      (0x21, extAddEntity2 (env.recall position)), (43, twoWayPing (env.recall position))] : List (UInt8 × Code Unit)) =
      [(0x0d, chatMessage env), (0x10, extInfo env), (0x11, extEntry env), (0x15, textHotKey env),
        (0x21, extAddEntity2 env), (43, twoWayPing env)] := rfl
  have hne : (id == 0x08) = false := beq_false_of_ne h
  unfold handlers
  rw [hbefore, hclick, hbehind]
  simp only [List.lookup_append, List.lookup_cons, hne]

/-- What the variables of a position hold matters for positions. -/
theorem dispatch_recall {id : UInt8} (h : id ≠ 0x08) (l : ServerLocals) :
    dispatch (env.recall position) id l = dispatch env id l := by
  have hlogin : login (env.recall position) = login env := rfl
  unfold dispatch
  rw [lookup_handlers_recall h, hlogin]

end Server

/-- **Rounds that begin with different memories.** -/
theorem matched_round {env env' : Env} (h : SameButPosition env env') (i : ThreadId) (l : Locals) :
    Matched Tunnel.read Hiding (round env i l) (round env' i l) := by
  rw [h]
  cases i with
  | main => cases l <;> exact Or.inl rfl
  | mcConnect => cases l <;> exact Or.inl rfl
  | builder => cases l <;> exact Or.inl rfl
  | tunnelServer =>
      cases l with
      | tunnelServer l =>
          refine Or.inr (Or.inr ⟨rfl, fun r => ?_⟩)
          cases r with
          | none => exact Or.inl rfl
          | some bs =>
              cases bs with
              | nil => exact Or.inl rfl
              | cons id bs =>
                  -- the id has been received
                  show (do let l' ← Server.dispatch env id l; pure (Locals.tunnelServer l') : Code Locals) =
                      (do let l' ← Server.dispatch (env.recall env'.position) id l; pure (Locals.tunnelServer l')) ∨
                    Twins Tunnel.read Hiding
                      (do let l' ← Server.dispatch env id l; pure (Locals.tunnelServer l') : Code Locals)
                      (do let l' ← Server.dispatch (env.recall env'.position) id l; pure (Locals.tunnelServer l')) ∨ _
                  by_cases h8 : id = 0x08
                  · subst h8
                    have hround : ∀ e : Env, (do
                        let l' ← Server.dispatch e 0x08 l
                        pure (Locals.tunnelServer l') : Code Locals) =
                        (do let pid ← recvVarW e.held 1; coordinatesRound e pid l) := by
                      intro e
                      rw [Server.dispatch_of_mem (Server.own_mem (e := (0x08, Server.posUpdate e))
                        (by repeat constructor)), Server.posUpdate_eq]
                      simp only [coordinatesRound, bind_assoc']
                    rw [hround, hround]
                    exact Or.inr (Or.inl (twins_recvVarW _ _ fun pid pid' => twins_coordinates _ _ pid pid' l))
                  · exact Or.inl (by rw [Server.dispatch_recall h8])
      | _ => exact Or.inl rfl

/-! ## The runs -/

/-- Both runs start alike. -/
theorem alike_start (t : Tunnel) : Alike (fun _ => ()) Tunnel.read IsPacket Hiding (start t) (start t) := by
  refine ⟨rfl, rfl, fun i => ?_⟩
  cases i with
  | main => exact ⟨rfl, trivial, trivial, Or.inl rfl⟩
  | tunnelServer => exact ⟨rfl, trivial, trivial, Or.inl rfl⟩
  | mcConnect => exact ⟨rfl, trivial, trivial, Or.inl rfl⟩
  | builder => exact ⟨rfl, trivial, trivial, Or.inl rfl⟩

/-- Two runs with the same schedule, whose answers differ only in the coordinates and the orientation of positions of
    the client that are tested while `hide` is on, and whose memories differ only in the variables these are received
    into. -/
def DifferWhileHidden (t : Tunnel) (moves moves' : List (CallStep Env ThreadId)) : Prop :=
  Paired tunnel (Covertly SameButPosition AtCoordinates Hiding) (fun _ => false) (start t) (start t) moves moves'

/-- Where a position is tested for which nothing different has arrived, but whose variables held something different,
    `hide` is on as well. -/
def LeftoversHidden (t : Tunnel) (moves moves' : List (CallStep Env ThreadId)) : Prop :=
  Paired tunnel (Unexposed Hiding) (fun _ => false) (start t) (start t) moves moves'

/-- **Hidden means hidden**, as long as what hidden positions have left in the variables is hidden too. Two runs that
    differ only in hidden positions write the same bytes to each socket. -/
theorem hidden_means_hidden (t : Tunnel) (moves moves' : List (CallStep Env ThreadId))
    (h : DifferWhileHidden t moves moves') (hleft : LeftoversHidden t moves moves') (s : Socket) :
    (play tunnel (start t) moves).stream s = (play tunnel (start t) moves').stream s := by
  have hstarted : ∀ (e e' : Env) i (t t' : Tunnel), t.read = t'.read →
      (tunnel e).started i t = (tunnel e').started i t' := by
    intro e e' i t t' ht
    have hlogged : t.loggedIn = t'.loggedIn := (congrArg Tunnel.loggedIn ht : t.read.loggedIn = t'.read.loggedIn)
    cases i with
    | main => rfl
    | tunnelServer => rfl
    | mcConnect => exact hlogged
    | builder => exact hlogged
  have hsecret : ∀ code code', AtCoordinates code code' → Twins Tunnel.read Hiding code code' := by
    rintro code code' ⟨env, env', pid, pid', l, hreceiving⟩
    exact hreceiving.twins (twins_coordinates env env' pid pid' l)
  have halike := covert_alike (fun env => writes_round env) (fun _ _ => matched_round) hstarted hsecret (alike_start t)
    h hleft
  exact congrFun halike.stream s

/-- Calls of a thread, one after the other. -/
def movesOf (who : ThreadId) (memory : Env) (answers : List (Option Bytes)) : List (CallStep Env ThreadId) :=
  answers.map fun answer => ⟨memory, who, answer⟩

/-- The client says where it is, with `x` in two bytes. -/
def positionAt (x : Bytes) (memory : Env) : List (CallStep Env ThreadId) :=
  movesOf .tunnelServer memory
    [none, some [0x08], some [255], some x, some [0, 64], some [0, 32], some [4], some [5], none, none]

/-- The command 'hide' on the console. -/
def hideTyped : List (CallStep Env ThreadId) := movesOf .main {} (none :: some (ascii "'hide") :: List.replicate 8 none)

/-- The memory after a position: its variables hold what has been received. -/
def leftBy (x : Bytes) : Env :=
  { position := fun k i => ([[255], x, [0, 64], [0, 32], [4], [5]].getD k []).getD i 0 }

/-- The connection of the client ends behind the id of a position, which is tested and passed on all the same. -/
def cutPosition (memory : Env) : List (CallStep Env ThreadId) :=
  movesOf .tunnelServer memory ([none, some [0x08]] ++ List.replicate 6 (some []) ++ List.replicate 9 none)

/-- Two calls that differ in nothing but what a position has left. -/
def SameAnswers (m m' : CallStep Env ThreadId) : Prop :=
  m.who = m'.who ∧ SameButPosition m.memory m'.memory ∧ m.answer = m'.answer

theorem sameAnswers_cutPosition {env env' : Env} (h : SameButPosition env env') :
    List.Forall₂ SameAnswers (cutPosition env) (cutPosition env') := by
  rw [cutPosition, cutPosition, movesOf, movesOf, List.forall₂_map_left_iff, List.forall₂_map_right_iff]
  exact List.forall₂_same.mpr fun _ _ => ⟨rfl, h, rfl⟩

/-- Two coordinates of a hidden client differ, and what they leave. -/
theorem differWhileHidden_positionAt {moves moves' : List (CallStep Env ThreadId)}
    (h : List.Forall₂ SameAnswers moves moves') :
    DifferWhileHidden { hide := true } (positionAt [0, 96] {} ++ moves) (positionAt [7, 7] {} ++ moves') := by
  have hat : AtCoordinates (coordinatesRound {} [255] {}) (coordinatesRound {} [255] {}) :=
    ⟨{}, {}, [255], [255], {}, Receiving.start⟩
  refine ⟨⟨rfl, rfl, Or.inl rfl, fun _ _ => rfl⟩, ⟨rfl, rfl, Or.inl rfl, fun _ _ => rfl⟩,
    ⟨rfl, rfl, Or.inl rfl, fun _ _ => rfl⟩, ?_⟩
  -- the coordinate that differs
  refine ⟨⟨rfl, rfl, Or.inr ⟨hat, rfl⟩, fun _ _ => rfl⟩, ?_⟩
  refine ⟨⟨rfl, rfl, Or.inl rfl, fun _ _ => rfl⟩, ⟨rfl, rfl, Or.inl rfl, fun _ _ => rfl⟩,
    ⟨rfl, rfl, Or.inl rfl, fun _ _ => rfl⟩, ⟨rfl, rfl, Or.inl rfl, fun _ _ => rfl⟩,
    ⟨rfl, rfl, Or.inl rfl, fun _ _ => rfl⟩, ⟨rfl, rfl, Or.inl rfl, fun _ _ => rfl⟩, ?_⟩
  exact paired_same_answers (fun i => by cases i <;> rfl) h

/-- Once he no longer hides, the connection ends inside a position: the server gets the coordinates that were hidden. -/
theorem hidden_leaks : ¬ ∀ (t : Tunnel) (moves moves' : List (CallStep Env ThreadId)),
    DifferWhileHidden t moves moves' →
      (play tunnel (start t) moves).stream tunnelSock = (play tunnel (start t) moves').stream tunnelSock := by
  intro hall
  have hcommand : List.Forall₂ SameAnswers hideTyped hideTyped := List.forall₂_same.mpr fun _ _ => ⟨rfl, rfl, rfl⟩
  have hrest : List.Forall₂ SameAnswers (hideTyped ++ cutPosition (leftBy [0, 96]))
      (hideTyped ++ cutPosition (leftBy [7, 7])) := List.rel_append hcommand (sameAnswers_cutPosition rfl)
  have hsame := hall { hide := true } _ _ (differWhileHidden_positionAt hrest)
  revert hsame
  decide +kernel

/-- A hidden client says where it is, and its connection ends inside the next position. -/
theorem hidden_means_hidden_cut :
    (play tunnel (start { hide := true }) (positionAt [0, 96] {} ++ cutPosition (leftBy [0, 96]))).stream tunnelSock =
      (play tunnel (start { hide := true }) (positionAt [7, 7] {} ++ cutPosition (leftBy [7, 7]))).stream
        tunnelSock := by
  have hcut : List.Forall₂ SameAnswers (cutPosition (leftBy [0, 96])) (cutPosition (leftBy [7, 7])) :=
    sameAnswers_cutPosition rfl
  refine hidden_means_hidden _ _ _ (differWhileHidden_positionAt hcut) ?_ tunnelSock
  -- he hides all the time
  refine ⟨fun _ _ _ => rfl, fun _ _ _ => rfl, fun _ _ _ => rfl, fun _ _ _ => rfl, fun _ _ _ => rfl, fun _ _ _ => rfl,
    fun _ _ _ => rfl, fun _ _ _ => rfl, fun _ _ _ => rfl, fun _ _ _ => rfl, ?_⟩
  exact ⟨fun _ _ _ => rfl, fun _ _ _ => rfl, fun _ _ _ => rfl, fun _ _ _ => rfl, fun _ _ _ => rfl, fun _ _ _ => rfl,
    fun _ _ _ => rfl, fun _ _ _ => rfl, fun _ _ _ => rfl, fun _ _ _ => rfl, fun _ _ _ => rfl, fun _ _ _ => rfl,
    fun _ _ _ => rfl, fun _ _ _ => rfl, fun _ _ _ => rfl, fun _ _ _ => rfl, fun _ _ _ => rfl, trivial⟩

end LavaTunnel
