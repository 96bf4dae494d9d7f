import LavaTunnel.Correctness.Handlers
import LavaTunnel.Correctness.Text

/-!
# `LavaTunnel.Correctness.Chat` — commands stay in the tunnel

A chat message with an apostrophe in front is a command, and the server is not to see it. Whether there is an
apostrophe is looked up in the cleaned text, and the cleaned text of a message that fills its field is empty.
So a command of 64 characters goes to the server as chat, and one of 63 does unless a space follows the buffer.
-/

namespace LavaTunnel

open Wire Wire.Prog

/-- A message to the server with the text in it. -/
def Carries (text : Bytes) (e : Socket × Bytes) : Prop :=
  ∃ what message, e = (tunnelSock, 0x0d :: what :: message) ∧ text <:+: message

/-- In every state the message runs just the command behind the apostrophe, and the server hears none of it. -/
def StaysPrivate (env : Env) (text : Bytes) : Prop :=
  ∀ (t : Tunnel) (l : ServerLocals) (what : UInt8) (rest : Bytes),
    (tunnelServer env l).run (0x0d :: what :: (padded text ++ rest)) t =
        (do Server.chatCommand env (text.drop 1); pure l : Code ServerLocals).run rest t ∧
      ∀ e ∈ (tunnelServer env l).sent (0x0d :: what :: (padded text ++ rest)) t, ¬ Carries text e

/-! ## What the tunnel says by itself -/

/-- Decimal numbers have no apostrophe. -/
theorem apostrophe_notMem_decimal (n : Int) : 39 ∉ decimal n := by
  have hdigits : ∀ k : Nat, ∀ c ∈ (toString k).toList, UInt8.ofNat c.toNat ≠ 39 := by
    intro k c hc
    have hdigit : c.isDigit := Nat.isDigit_of_mem_toDigits (b := 10) (by decide) (by decide) (by simpa using hc)
    have hrange := Char.isDigit_iff_toNat.mp hdigit
    intro h39
    have hnat : (UInt8.ofNat c.toNat).toNat = 39 := by rw [h39]; rfl
    rw [UInt8.toNat_ofNat'] at hnat
    have hlow : 48 ≤ c.toNat := hrange.1
    have hhigh : c.toNat ≤ 57 := hrange.2
    omega
  intro h
  obtain ⟨c, hc, h39⟩ := List.mem_map.mp h
  -- digits, and a minus in front of a negative number
  cases n with
  | ofNat k => exact hdigits k c hc h39
  | negSucc k =>
      have hsign : (toString (Int.negSucc k)).toList = '-' :: (toString (k + 1)).toList := by
        show ("-" ++ toString (k + 1)).toList = _
        rw [String.toList_append]
        rfl
      rw [hsign] at hc
      rcases List.mem_cons.mp hc with rfl | hc
      · exact absurd h39 (by decide)
      · exact hdigits (k + 1) c hc h39

/-- A roll has no apostrophe in it. -/
theorem apostrophe_notMem_roll (n : Int) : 39 ∉ toMCString (rollText n) := by
  have hroll : 39 ∉ rollText n := by
    unfold rollText
    intro h
    rcases List.mem_append.mp h with h | h
    · rcases List.mem_append.mp h with h | h
      · exact absurd h (by decide)
      · exact apostrophe_notMem_decimal n h
    · exact absurd h (by decide)
  unfold toMCString
  intro h
  rcases List.mem_append.mp h with h | h
  · exact hroll (List.takeWhile_sublist _ |>.subset (List.mem_of_mem_take h))
  · exact absurd (List.eq_of_mem_replicate h) (by decide)

section Command

variable {env : Env} {text : Bytes}

/-- A text with an apostrophe is in no roll. -/
theorem Told.not_carries (h : 39 ∈ text) {e : Socket × Bytes} (he : Told e.1 e.2) : ¬ Carries text e := by
  rintro ⟨what, message, rfl, hinside⟩
  obtain ⟨n, hn⟩ := he.2 rfl
  obtain ⟨-, hmessage⟩ : what = 0 ∧ message = toMCString (rollText n) := by simpa using hn
  rw [hmessage] at hinside
  exact apostrophe_notMem_roll n (hinside.subset h)

/-- What is no message carries no text. -/
theorem Walked.not_carries {e : Socket × Bytes} (he : Walked e.1 e.2) : ¬ Carries text e := by
  rintro ⟨what, message, rfl, -⟩
  exact he.2 rfl rfl

/-- **No command** tells the server a text with an apostrophe. -/
theorem chatCommand_not_carries (h : 39 ∈ text) (command : Bytes) (i : Bytes) (t : Tunnel) :
    ∀ e ∈ (Server.chatCommand env command).sent i t, ¬ Carries text e := by
  intro e he
  by_cases hptp : command = ascii "ptp"
  · -- `ptp` walks, and is known
    subst hptp
    have hwalked : Spoken Walked (Server.chatCommand env (ascii "ptp")) :=
      Mild.bind (walked_commandFunc_ptp env) fun _ =>
        Mild.onlyIf (spoken_tunnelMsg (fun _ => walked_serverSock) _)
    exact Walked.not_carries (hwalked.tame.emits.sent i t e he)
  · exact Told.not_carries h ((Server.told_chatCommand env hptp).tame.emits.sent i t e he)

end Command

/-! ## The message -/

theorem run_sendMessage (pid : UInt8) (s i : Bytes) (t : Tunnel) : (sendMessage pid s).run i t =
    ⟨some (), i, t, [(tunnelSock, [0x0d]), (tunnelSock, [pid]), (tunnelSock, toMCString s)]⟩ := by
  unfold sendMessage
  rw [run_packet]
  rfl

theorem sent_sendMessage (pid : UInt8) (s i : Bytes) (t : Tunnel) :
    (sendMessage pid s).sent i t = [(tunnelSock, 0x0d :: pid :: toMCString s)] := by
  show [(tunnelSock, [0x0d] ++ ([pid] ++ (toMCString s ++ [])))] = _
  rw [List.append_nil]
  rfl

section Said

variable {env : Env} {message : Bytes} {t : Tunnel} (hcommand : Server.isCommand env message = false)
  (hg : t.gimped = false)
include hcommand hg

/-- A message that is no command goes to the server. -/
theorem run_said_chat (what : UInt8) (i : Bytes) :
    (Server.said env [what] message).run i t = (sendMessage what message).run i t := by
  unfold Server.said
  rw [if_neg (by simp [hcommand])]
  show (if t.gimped ∧ byte message ≠ 47 then _ else sendMessage what message : Code Unit).run i t = _
  rw [if_neg (by simp [hg])]

theorem sent_said_chat (what : UInt8) (i : Bytes) :
    (Server.said env [what] message).sent i t = (sendMessage what message).sent i t := by
  unfold Server.said
  rw [if_neg (by simp [hcommand])]
  show (if t.gimped ∧ byte message ≠ 47 then _ else sendMessage what message : Code Unit).sent i t = _
  rw [if_neg (by simp [hg])]

end Said

/-- A round with a message does what becomes of it. -/
theorem run_round_said (env : Env) (l : ServerLocals) (what : UInt8) {message : Bytes} (hlen : message.length = 64)
    (rest : Bytes) (t : Tunnel) : (tunnelServer env l).run (0x0d :: what :: (message ++ rest)) t =
      (do Server.said env [what] message; pure l : Code ServerLocals).run rest t := by
  have hmem : (0x0d, Server.chatMessage env) ∈ Server.handlers env := Server.own_mem (by repeat constructor)
  have hrun : (Server.chatMessage env).run ([what] ++ (message ++ rest)) t =
      (Server.said env [what] message).run rest t := by
    rw [Server.chatMessage_eq, run_recvVarW_append _ (List.length_singleton (a := what)),
      run_recvVarW_append _ hlen]
  rw [List.singleton_append] at hrun
  rw [run_tunnelServer hmem, hrun, run_bind]

theorem sent_round_said (env : Env) (l : ServerLocals) (what : UInt8) {message : Bytes} (hlen : message.length = 64)
    (rest : Bytes) (t : Tunnel) : (tunnelServer env l).sent (0x0d :: what :: (message ++ rest)) t =
      (Server.said env [what] message).sent rest t := by
  have hmem : (0x0d, Server.chatMessage env) ∈ Server.handlers env := Server.own_mem (by repeat constructor)
  rw [sent_tunnelServer hmem, Server.chatMessage_eq]
  show (recvVarW env 1 >>= _).sent ([what] ++ (message ++ rest)) t = _
  rw [sent_recvVarW_append _ (List.length_singleton (a := what)), sent_recvVarW_append _ hlen]

section Message

variable {env : Env} {text : Bytes} (h : PlainText text) (hamp : 38 ∉ text) (hlen : text.length ≤ 64)
include h hamp hlen

/-- A text that is terminated is found again. -/
theorem cleanMessage_padded : Server.cleanMessage env (padded text) = if Terminated env.past text then text else [] :=
  cstr_cleanString_padded env h hamp hlen (length_undef env 64)

/-- A command that is terminated is run. -/
theorem said_terminated (hhead : text.head? = some 39) (htwo : 2 ≤ text.length) (ht : Terminated env.past text)
    (what : Bytes) : Server.said env what (padded text) = Server.chatCommand env (text.drop 1) := by
  have hclean : Server.cleanMessage env (padded text) = text := by
    rw [cleanMessage_padded h hamp hlen, if_pos ht]
  have hcommand : Server.isCommand env (padded text) = true := by
    unfold Server.isCommand
    rw [hclean, List.headD_eq_head?_getD, hhead]
    simpa using htwo
  unfold Server.said
  rw [if_pos hcommand, hclean]

/-- A text that is not terminated is chat, whatever it starts with. -/
theorem said_unterminated (ht : ¬ Terminated env.past text) (what : UInt8) {t : Tunnel} (hg : t.gimped = false)
    (i : Bytes) : (Server.said env [what] (padded text)).sent i t =
      [(tunnelSock, 0x0d :: what :: padded text)] := by
  -- without an end the copy is empty, so nothing in it is a command
  have hcommand : Server.isCommand env (padded text) = false := by
    unfold Server.isCommand
    rw [cleanMessage_padded h hamp hlen, if_neg ht]
    rfl
  have hnul : 0 ∉ padded text := by
    intro h0
    rcases List.mem_append.mp h0 with h0 | h0
    · exact h.noNul h0
    · exact absurd (List.eq_of_mem_replicate h0) (by decide)
  have hfield : toMCString (padded text) = padded text := (toMCString_eq_iff (length_padded hlen)).mpr hnul
  rw [sent_said_chat hcommand hg, sent_sendMessage, hfield]

end Message

/-- **Commands never leak.** A message with an apostrophe in front is handled as a command in every state, and no
    message to the server carries it, just if its text is terminated: it leaves two bytes of its field free, or
    one, and a space happens to follow the buffer. -/
theorem staysPrivate_iff (env : Env) (text : Bytes) (h : PlainText text) (hamp : 38 ∉ text)
    (hhead : text.head? = some 39) (htwo : 2 ≤ text.length) (hlen : text.length ≤ 64) :
    StaysPrivate env text ↔ Terminated env.past text := by
  have hpadded : (padded text).length = 64 := length_padded hlen
  constructor
  · intro hprivate
    by_contra ht
    -- an ungimped user says it to everyone
    apply (hprivate {} {} 0 []).2 (tunnelSock, 0x0d :: 0 :: padded text)
    · rw [sent_round_said env {} 0 hpadded, said_unterminated h hamp hlen ht 0 rfl]
      exact List.mem_singleton_self _
    · exact ⟨0, padded text, rfl, (List.prefix_append text _).isInfix⟩
  · intro ht t l what rest
    have hsaid := said_terminated h hamp hlen hhead htwo ht [what]
    have h39 : 39 ∈ text := List.mem_of_mem_head? hhead
    constructor
    · rw [run_round_said env l what hpadded, hsaid]
    · rw [sent_round_said env l what hpadded, hsaid]
      exact chatCommand_not_carries h39 _ rest t

/-- A short command stays private. -/
theorem staysPrivate_iff_hide : StaysPrivate {} (ascii "'hide") ↔ Terminated 0 (ascii "'hide") :=
  staysPrivate_iff {} (ascii "'hide") ⟨by decide, by decide, by decide⟩ (by decide) rfl (by decide) (by decide)

/-- A command with a name that fills the field. -/
def longTp : Bytes := ascii "'tp " ++ List.replicate 60 97

/-- The server gets to see it. -/
theorem longTp_leaks :
    longTp.length = 64 ∧
      (tunnelServer {} {}).sent (0x0d :: 0 :: (padded longTp ++ [])) {} =
        [(tunnelSock, 0x0d :: 0 :: padded longTp)] ∧ ¬ StaysPrivate {} longTp := by
  have hsent : (tunnelServer {} {}).sent (0x0d :: 0 :: (padded longTp ++ [])) {} =
      [(tunnelSock, 0x0d :: 0 :: padded longTp)] := by
    decide +kernel
  refine ⟨by decide, hsent, fun hprivate => ?_⟩
  apply (hprivate {} {} 0 []).2 (tunnelSock, 0x0d :: 0 :: padded longTp)
  · rw [hsent]
    exact List.mem_singleton_self _
  · exact ⟨0, padded longTp, rfl, (List.prefix_append longTp _).isInfix⟩

end LavaTunnel
