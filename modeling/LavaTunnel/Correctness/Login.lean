import LavaTunnel.Correctness.Table
import LavaTunnel.Wire.First

/-!
# `LavaTunnel.Correctness.Login` — the login comes first

The login of the client starts `mcConnect`, which logs in to the server. Meanwhile `tunnelServer` goes on with the
packets of the client and the console with its commands, and nothing in the code waits. If they do wait, the
login is written in one piece and before anything else: no thread changes the account any more.
-/

namespace LavaTunnel

open Wire Wire.Prog

/-! ## Nobody changes the account -/

section Account

variable (env : Env)

theorem accounted_mcConnect (l : McLocals) : Accounted everything (mcConnect env l) := by
  have hall : ∀ i, everything.player i = true := fun _ => rfl
  refine Tame.bind (tame_recvW 1) fun r => Tame.ite Client.guarded_disconnected.accounted ?_
  generalize byte (env.fill 1 r.2) = id
  by_cases hmap : id = 0x04 ∨ id = 0x06
  · have hid : id ≠ 0x21 ∧ id ≠ 0x18 := by rcases hmap with rfl | rfl <;> decide
    exact Client.accounted_dispatch env (fun i _ => hall i) (fun _ => rfl) hid l
  · push Not at hmap
    exact (Client.guarded_other env hall hmap l).accounted

/-- Whether the thread is past the client's login, if that is its business. -/
def Locals.LoggedIn (l : Locals) : Prop := ∀ s : ServerLocals, l = .tunnelServer s → s.fucked = true

theorem settled_bind {α β : Type} {R : β → Prop} {c : Code α} {f : α → Code β} (hc : Accounted everything c)
    (hf : ∀ a, (f a).Settled Tunnel.account R) : (c >>= f).Settled Tunnel.account R :=
  Tame.settled_bind (Tame.mono Prod.snd (fun _ _ => id) hc) hf

theorem latch_bind {α β : Type} {isOpen : Bytes × Bytes × UInt8 × Bool → Bool} {R : β → Prop} {c : Code α}
    {f : α → Code β} (hc : Accounted everything c) (hf : ∀ a, (f a).Latch Tunnel.account isOpen R) :
    (c >>= f).Latch Tunnel.account isOpen R :=
  Tame.latch_bind (Tame.mono Prod.snd (fun _ _ => id) hc) hf

/-- What follows the id of a packet that is not the first login. -/
theorem Server.accounted_other {id : UInt8} {l : ServerLocals} (hlogin : ¬ (id = 0x00 ∧ l.fucked = false)) :
    ∃ c : Code Unit, Accounted everything c ∧ Server.dispatch env id l = (do c; pure l) := by
  by_cases hclick : id = 0x05
  · subst hclick
    exact ⟨Server.setBlockClick env, Server.accounted_setBlockClick env fun _ => rfl, rfl⟩
  · obtain ⟨c, hc, heq⟩ := Server.guarded_other (S := everything) env (fun _ => rfl) hclick hlogin
    exact ⟨c, hc.accounted, heq⟩

theorem round_tunnelServer (l : ServerLocals) : round env .tunnelServer (.tunnelServer l) = (do
    let r ← recvW 1
    (if r.1 < 1 then Prog.exit else Server.dispatch env (byte (env.fill 1 r.2)) l) >>= fun l' =>
      pure (.tunnelServer l')) :=
  bind_assoc' _ _ _

/-- **After the client's login** no round changes the account. -/
theorem settled_round (who : ThreadId) (l : Locals) (h : l.LoggedIn) :
    (round env who l).Settled Tunnel.account Locals.LoggedIn := by
  have hother : ∀ {l : Locals}, (∀ s, l ≠ .tunnelServer s) → l.LoggedIn := fun hne s hs => absurd hs (hne s)
  have hsame : (pure l : Code Locals).Settled Tunnel.account Locals.LoggedIn := h
  cases who with
  | main =>
      cases l with
      | main => exact settled_bind (guarded_console env fun _ => rfl).accounted fun _ => hother (by simp)
      | _ => exact hsame
  | tunnelServer =>
      cases l with
      | tunnelServer l =>
          have hl : l.fucked = true := h l rfl
          rw [round_tunnelServer]
          refine settled_bind (tame_recvW 1) fun r => ?_
          by_cases hgone : r.1 < 1
          · rw [if_pos hgone]
            trivial
          · rw [if_neg hgone]
            -- `fucked` is set, so the login is not called again
            have hlogin : ¬ (byte (env.fill 1 r.2) = 0x00 ∧ l.fucked = false) := by simp [hl]
            obtain ⟨c, hc, heq⟩ := Server.accounted_other env hlogin
            rw [heq, bind_assoc']
            refine settled_bind hc fun _ => ?_
            rintro s ⟨⟩
            exact hl
      | _ => exact hsame
  | mcConnect =>
      cases l with
      | connecting => exact settled_bind (guarded_mcLogin (S := everything)).accounted fun _ => hother (by simp)
      | mcConnect l => exact settled_bind (accounted_mcConnect env l) fun _ => hother (by simp)
      | _ => exact hsame
  | builder =>
      cases l with
      | builder pc => exact settled_bind (accounted_builder env (fun _ => rfl) pc) fun _ => hother (by simp)
      | _ => exact hsame

/-- Whether `mcConnect` may log in. -/
def mayLogIn (account : Bytes × Bytes × UInt8 × Bool) : Bool := account.2.2.2

/-- **Before it** only the login changes the account, and opens the way for `mcConnect`. -/
theorem latch_round (l : Locals) : (round env .tunnelServer l).Latch Tunnel.account mayLogIn Locals.LoggedIn := by
  cases l with
  | tunnelServer l =>
      rw [round_tunnelServer]
      refine latch_bind (tame_recvW 1) fun r => ?_
      by_cases hgone : r.1 < 1
      · rw [if_pos hgone]
        trivial
      · rw [if_neg hgone]
        -- only a login opens the latch, and it sets `fucked`
        by_cases hlogin : byte (env.fill 1 r.2) = 0x00 ∧ l.fucked = false
        · unfold Server.dispatch
          rw [if_pos hlogin]
          have hrecv : ∀ (env : Env) n, Accounted everything (recvVarW env n) :=
            fun _ n => Tame.bind (tame_recvW n) fun _ => Tame.pure _
          unfold Server.login
          simp only [bind_assoc']
          refine latch_bind (hrecv _ 1) fun _ => latch_bind (hrecv _ 64) fun _ => latch_bind (hrecv _ 64) fun _ =>
            latch_bind (tame_recvW 1) fun _ => Or.inr ⟨fun _ => rfl, ?_⟩
          rintro s ⟨⟩
          rfl
        · obtain ⟨c, hc, heq⟩ := Server.accounted_other env hlogin
          rw [heq, bind_assoc']
          exact latch_bind hc fun _ => trivial
  | _ => trivial

end Account

/-! ## The login first -/

/-- The login packet of `mcConnect`. -/
def loginPacket (account : Bytes × Bytes × UInt8 × Bool) : Bytes :=
  [0x00, 7] ++ toMCString account.1 ++ toMCString account.2.1 ++ [account.2.2.1]

theorem length_loginPacket (account : Bytes × Bytes × UInt8 × Bool) : (loginPacket account).length = 131 := by
  simp [loginPacket, length_toMCString]

theorem begins_round (env : Env) (account : Bytes × Bytes × UInt8 × Bool) :
    (round env .mcConnect .connecting).Begins Tunnel.account account tunnelSock (loginPacket account) := by
  rintro t rfl
  refine ⟨rfl, ?_⟩
  simp [loginPacket, Tunnel.account]

theorem lateStart (env : Env) : LateStart (tunnel env) Tunnel.account loginPacket .mcConnect tunnelSock mayLogIn
    Locals.LoggedIn .tunnelServer .connecting 131 where
  body := settled_round env
  opener := latch_round env
  started _ := rfl
  begins := begins_round env
  length := length_loginPacket
  pos := by decide

/-- Before the client has logged in. -/
def atFirst (t : Tunnel) : Config ThreadId Tunnel Socket Locals := start { t with loggedIn := false }

theorem late_atFirst (env : Env) (t : Tunnel) : Late (tunnel env) Tunnel.account loginPacket .mcConnect tunnelSock
    mayLogIn Locals.LoggedIn .tunnelServer .connecting (atFirst t) := by
  refine Late.closed rfl (fun j hj => ?_) trivial rfl rfl
  cases j with
  | tunnelServer => exact absurd rfl hj
  | main => exact fun s hs => absurd hs (by simp)
  | mcConnect => exact fun s hs => absurd hs (by simp)
  | builder => exact fun s hs => absurd hs (by simp)

/-- What is written to the server is the login of the account, as far as it goes, and then the rest. -/
def LoginFirst (c : Config ThreadId Tunnel Socket Locals) : Prop :=
  FirstIs Tunnel.account loginPacket .mcConnect tunnelSock c

/-- **The login comes first** at every moment of a run just if in no step another thread writes to the server before
    `mcConnect` has written the 131 bytes of the login. -/
theorem login_first_iff (env : Env) (t : Tunnel) (sched : List (ThreadId × Option Bytes)) :
    (∀ n, LoginFirst ((tunnel env).exec (atFirst t) (sched.take n))) ↔
      (tunnel env).EachStep (AwaitsFirst (tunnel env) .mcConnect tunnelSock 131) (atFirst t) sched :=
  late_first_iff (lateStart env) (late_atFirst env t) sched

/-- The client logs in, and when `mcConnect` has sent the id of its login, the client changes a block. -/
def blockIntoLogin : List (ThreadId × Option Bytes) :=
  [(.tunnelServer, none), (.tunnelServer, some [0]), (.tunnelServer, some [7]),
    (.tunnelServer, some (List.replicate 64 32)), (.tunnelServer, some (List.replicate 64 32)),
    (.tunnelServer, some [0]), (.tunnelServer, none)] ++
  List.replicate 4 (.mcConnect, none) ++
  [(.tunnelServer, none), (.tunnelServer, some [0x05]), (.tunnelServer, some [0, 1]), (.tunnelServer, some [0, 1]),
    (.tunnelServer, some [0, 1]), (.tunnelServer, some [1]), (.tunnelServer, some [1]), (.tunnelServer, none),
    (.tunnelServer, none)]

theorem stream_blockIntoLogin : ((tunnel {}).exec (atFirst {}) blockIntoLogin).stream tunnelSock =
    [(.mcConnect, 0x00), (.tunnelServer, 0x05)] := by
  decide +kernel

/-- **The change lands in the login.** -/
theorem block_lands_in_login : ¬ ∀ (env : Env) (t : Tunnel) (sched : List (ThreadId × Option Bytes)),
    LoginFirst ((tunnel env).exec (atFirst t) sched) := by
  intro hall
  have hfirst := hall {} {} blockIntoLogin
  rw [LoginFirst, FirstIs, stream_blockIntoLogin] at hfirst
  have hforeign : ThreadId.tunnelServer ≠ .mcConnect := by decide
  refine not_firstIs_of_foreign hforeign [0x00] [0x05] ?_ (by simp) hfirst
  rw [length_loginPacket]
  decide

end LavaTunnel
