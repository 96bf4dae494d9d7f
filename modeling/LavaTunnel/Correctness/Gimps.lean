import LavaTunnel.Correctness.Chat

/-!
# `LavaTunnel.Correctness.Gimps` — a text of the list instead of the message

While the user is gimped a message is replaced by a text of the list. A text that is long, together with the user's
name, is to go out in `n` messages. The loop counts from 0 to `n`, both included: it sends one message more than it
has room for in its two buffers, and the message with the closing type byte is the one that is too many.
-/

namespace LavaTunnel

open Wire Wire.Prog

/-- The text that is picked for a value of `rand()`. -/
def gimpPick (r : Nat) (t : Tunnel) : Nat := ((r : Int).tmod (t.gimpN - 1) + 1).toNat

/-- Where the text that is picked lies in the table. -/
def gimpSlot (env : Env) (t : Tunnel) : Nat := 256 * gimpPick (env.rand t.rands) t

/-- A message that a text is sent for, and the text. -/
structure Gimping (env : Env) (t : Tunnel) (message text : Bytes) : Prop where
  gimped : t.gimped = true
  many : t.gimpN ≠ 1
  length_message : message.length = 64
  noCommand : Server.isCommand env message = false
  noSlash : byte message ≠ 47
  noNul : 0 ∉ text
  ne_nil : text ≠ []
  slot : text ++ [0] <+: Server.gimpText t (gimpSlot env t) 256

/-- `size`: the length of the text and of the name. -/
def gimpSize (t : Tunnel) (text : Bytes) : Nat := text.length + strlen (t.player (-1)).username

/-- `n`: how many messages the gimp will be split into. -/
def gimpCount (t : Tunnel) (text : Bytes) : Nat := (gimpSize t text + 63) / 64

/-- The bytes of the slot that the loop reads: `strncpy` stops behind a NUL, or after 64 bytes. -/
def gimpReads (t : Tunnel) (slot n : Nat) : List Nat :=
  (List.range (n + 1)).flatMap fun i =>
    (List.range (min 64 (strlen (Server.gimpText t (slot + 64 * i) 64) + 1))).map (64 * i + ·)

/-- The entries of `buf` and `buf2` that the loop writes. -/
def gimpWrites (n : Nat) : List Nat := List.range (n + 1)

/-- The message with the number `i`. -/
def gimpPiece (t : Tunnel) (slot n i : Nat) : Socket × Bytes :=
  (tunnelSock, 0x0d :: (if i < n then 1 else 0) ::
    toMCString (toMCString (strncpy64 (Server.gimpText t (slot + 64 * i) 64))))

/-- A long text goes out as it is to: in `n` messages, the last of them marked, whose texts make up the text and
    nothing but spaces behind it, with every access inside the slot and the buffers. -/
structure SplitsWell (env : Env) (l : ServerLocals) (t : Tunnel) (message text : Bytes) : Prop where
  count : ((tunnelServer env l).sent (0x0d :: 0 :: message) t).length = gimpCount t text
  marked : ∀ i e, ((tunnelServer env l).sent (0x0d :: 0 :: message) t)[i]? = some e → ∃ body : Bytes,
    body.length = 64 ∧ e = (tunnelSock, 0x0d :: (if i + 1 < gimpCount t text then 1 else 0) :: body)
  whole : ∃ k, ((tunnelServer env l).sent (0x0d :: 0 :: message) t).flatMap (fun e => e.2.drop 2) =
    text ++ List.replicate k 32
  reads : ∀ i ∈ gimpReads t (gimpSlot env t) (gimpCount t text), i < 256
  writes : ∀ i ∈ gimpWrites (gimpCount t text), i < gimpCount t text

/-! ## What is sent -/

theorem sent_forEach_sendMessage {β : Type} (what : β → UInt8) (text : β → Bytes) (bs : List β) (i : Bytes)
    (t : Tunnel) :
    (forEach (fun b => sendMessage (what b) (text b)) bs).sent i t =
      bs.map (fun b => (tunnelSock, 0x0d :: what b :: toMCString (text b))) := by
  induction bs with
  | nil => rfl
  | cons b bs ih =>
      show ((sendMessage (what b) (text b)) >>= fun _ =>
        forEach (fun b => sendMessage (what b) (text b)) bs : Code Unit).sent i t = _
      rw [sent_bind_of (run_sendMessage (what b) (text b) i t), sent_sendMessage, ih]
      rfl

section Sent

variable {env : Env} {t : Tunnel} {message text : Bytes} (h : Gimping env t message text)
include h

/-- The text is as long as it looks. -/
theorem strlen_gimpText : strlen (Server.gimpText t (gimpSlot env t) 256) = text.length := by
  obtain ⟨rest, hrest⟩ := h.slot
  unfold strlen
  rw [← hrest, List.append_assoc, List.singleton_append, cstr_append_zero h.noNul]

/-- **A long text** goes out in one message more than counted. -/
theorem sent_gimping (l : ServerLocals) (hlong : 64 ≤ gimpSize t text) :
    (tunnelServer env l).sent (0x0d :: 0 :: message) t =
      (List.range (gimpCount t text + 1)).map (gimpPiece t (gimpSlot env t) (gimpCount t text)) := by
  have hsent := sent_round_said env l 0 h.length_message [] t
  rw [List.append_nil] at hsent
  have hcommand : ¬ Server.isCommand env message = true := by simp [h.noCommand]
  have hsize : strlen (Server.gimpText t (gimpSlot env t) 256) + strlen (t.player (-1)).username =
      gimpSize t text := by
    rw [strlen_gimpText h]
    rfl
  have hrand : (Server.gimpMessage env 0).sent ([] : Bytes) t =
      (Server.sendGimp { t with rands := t.rands + 1 } (gimpSlot env t) 0).sent ([] : Bytes)
        { t with rands := t.rands + 1 } := by
    show (if t.gimpN = 1 then Prog.exit else Server.sendGimp _ (gimpSlot env t) 0 : Code Unit).sent ([] : Bytes) _ = _
    rw [if_neg h.many]
  rw [hsent]
  unfold Server.said
  rw [if_neg hcommand, sent_getState_bind, if_pos ⟨h.gimped, h.noSlash⟩,
    onlyIf_pos (show byte [0] = 0 from rfl)]
  refine hrand.trans ?_
  unfold Server.sendGimp
  dsimp only
  rw [show strlen (Server.gimpText { t with rands := t.rands + 1 } (gimpSlot env t) 256) + _ = _ from hsize,
    if_pos hlong, sent_forEach_sendMessage]
  rfl

end Sent

/-- **No long text is split as it is to be**: there is one message too many, whatever the text and the name. -/
theorem gimp_not_splitsWell (env : Env) (l : ServerLocals) (t : Tunnel) {message text : Bytes}
    (h : Gimping env t message text) (hlong : 64 ≤ gimpSize t text) : ¬ SplitsWell env l t message text := by
  intro hsplit
  have hcount := hsplit.count
  rw [sent_gimping h l hlong, List.length_map, List.length_range] at hcount
  exact Nat.succ_ne_self _ hcount

/-- A text of 70 letters, in the second slot of three. -/
def gimpedState : Tunnel where
  gimped := true
  gimpN := 3
  gimp := fun i => if 256 ≤ i ∧ i < 326 then 97 else 0

theorem gimping_letters : Gimping {} gimpedState (List.replicate 64 32) (List.replicate 70 97) where
  gimped := rfl
  many := by decide
  length_message := rfl
  noCommand := by decide +kernel
  noSlash := by decide
  noNul := by decide
  ne_nil := by decide
  slot := by decide +kernel

/-- Three messages instead of two. -/
theorem gimp_not_splitsWell_letters : ¬ SplitsWell {} {} gimpedState (List.replicate 64 32) (List.replicate 70 97) :=
  gimp_not_splitsWell {} {} gimpedState gimping_letters (by decide +kernel)

theorem gimp_splits_too_often : ¬ ∀ (env : Env) (l : ServerLocals) (t : Tunnel) (message text : Bytes),
    Gimping env t message text → 64 ≤ gimpSize t text → SplitsWell env l t message text := by
  intro hall
  have hsplit := hall {} {} gimpedState _ _ gimping_letters (by decide +kernel)
  have hcount := hsplit.count
  rw [sent_gimping gimping_letters {} (by decide +kernel), List.length_map, List.length_range] at hcount
  exact Nat.succ_ne_self _ hcount

end LavaTunnel
