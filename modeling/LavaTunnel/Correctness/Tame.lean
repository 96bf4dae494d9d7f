import LavaTunnel.Relay
import LavaTunnel.Wire.Tame

/-!
# `LavaTunnel.Correctness.Tame` — the calls all handlers are made of

The fields of `Tunnel` that no thread reads are the position of a hidden client and two texts of the server;
`Tunnel.read` clears them. Everything the tunnel does is `Tame` with respect to it. Here are the pieces: what
is received, what is relayed, and the packets the tunnel makes up.
-/

namespace LavaTunnel

open Wire Wire.Prog

/-- The state without the fields that no thread reads. -/
def Tunnel.read (t : Tunnel) : Tunnel :=
  { t with
    motd := []
    servername := []
    user := { t.user with hx := 0, hy := 0, hz := 0, hyaw := 0, hpitch := 0 } }

/-- A packet that does not move the user on the server. -/
def Calm (s : Socket) (bs : Bytes) : Prop := IsPacket s bs ∧ (s = tunnelSock → bs.head? ≠ some 0x08)

/-- What is written to the client does not move the user. -/
theorem calm_serverSock {bs : Bytes} (h : IsPacket serverSock bs) : Calm serverSock bs :=
  ⟨h, fun hs => absurd hs (by decide)⟩

theorem calm_of_length {s : Socket} {id : UInt8} {payload : Bytes} {n : Nat} (h : payload.length = n)
    (hmem : (id, n) ∈ sentPackets s) (hid : id ≠ 0x08) : Calm s (id :: payload) :=
  ⟨isPacket_of_length h hmem, fun _ hhead => hid (Option.some.inj hhead)⟩

section Tame

variable {κ α : Type} {kept : Tunnel → κ} {blur : Tunnel → Tunnel} {P : Socket → Bytes → Prop} (env : Env)

theorem tame_recvW (n : Nat) : (recvW n).Tame kept blur P := by
  have hloop : ∀ fuel buffer, (recvWLoop fuel n buffer).Tame kept blur P := by
    intro fuel
    induction fuel with
    | zero => exact fun _ => Tame.pure _
    | succ fuel ih =>
        intro buffer
        unfold recvWLoop
        split
        · rintro (_ | _ | ⟨b, bs⟩)
          · exact Tame.pure _
          · exact Tame.pure _
          · exact ih _
        · exact Tame.pure _
  exact hloop n []

/-- Code that goes on from a received variable may count on its length. -/
theorem tame_recvVarW {n : Nat} {f : Bytes → Code α} (h : ∀ v, v.length = n → (f v).Tame kept blur P) :
    (recvVarW env n >>= f).Tame kept blur P := by
  unfold recvVarW
  rw [bind_assoc']
  exact Tame.bind (tame_recvW n) (fun r => h _ (length_fill env n r.2))

theorem tame_recvVar {n : Nat} {f : Bytes → Code α} (h : ∀ v, v.length = n → (f v).Tame kept blur P) :
    (recvVar env n >>= f).Tame kept blur P := by
  unfold recvVar
  rw [bind_assoc']
  exact Tame.bind (Tame.recvCall n) (fun r => h _ (length_fill env n _))

theorem tame_recvFields (fs : List Field) {k : List Bytes → Code α}
    (h : ∀ vs : List Bytes, vs.map List.length = fs.map Field.width → (k vs).Tame kept blur P) :
    (recvFields env fs >>= k).Tame kept blur P := by
  induction fs generalizing env k with
  | nil => exact h [] rfl
  | cons f fs ih =>
      rw [recvFields, bind_assoc']
      have hrest : ∀ v : Bytes, v.length = f.width →
          ((do let vs ← recvFields (env.var 1) fs; pure (v :: vs)) >>= k).Tame kept blur P := by
        intro v hv
        rw [bind_assoc']
        exact ih (env.var 1) (fun vs hvs => h (v :: vs) (by rw [List.map_cons, List.map_cons, hv, hvs]))
      unfold Field.get
      cases f.recvW with
      | true => exact tame_recvVarW _ hrest
      | false => exact tame_recvVar _ hrest

/-- **A relay writes one packet of its length**, whatever arrives, and nothing else. -/
theorem tame_relay {dest : Socket} {r : Relay}
    (h : ∀ payload : Bytes, payload.length = r.width → P dest (r.id :: payload)) :
    (relay env dest r).Tame kept blur P := by
  refine tame_recvFields env r.layout (fun vs hvs => Tame.packet ?_)
  rw [r.bytes_calls (by simpa using congrArg List.length hvs)]
  refine h _ ?_
  rw [List.length_flatten, hvs, Relay.width]

end Tame

/-! ## What is sent after something was received -/

section Sent

variable {α : Type} (env : Env) {n : Nat}

theorem sent_recvW_bind (f : Int × Bytes → Code α) (i : Bytes) (t : Tunnel) :
    (recvW n >>= f).sent i t = (f ((i.take n).length, i.take n)).sent (i.drop n) t := by
  have hrun : (recvW n).run i t = ⟨some ((i.take n).length, i.take n), i.drop n, t, []⟩ := by
    rw [← bind_pure' (recvW n), run_recvW_bind]
    rfl
  have htame : (recvW n).Tame id id fun _ _ => False := tame_recvW n
  rw [sent_bind_of hrun, sent_eq_nil htame.emits, List.nil_append]

theorem sent_recvVarW_bind (f : Bytes → Code α) (i : Bytes) (t : Tunnel) :
    (recvVarW env n >>= f).sent i t = (f (env.fill n (i.take n))).sent (i.drop n) t := by
  unfold recvVarW
  rw [bind_assoc', sent_recvW_bind]
  rfl

theorem sent_recvVar_bind (f : Bytes → Code α) (i : Bytes) (t : Tunnel) :
    (recvVar env n >>= f).sent i t = (f (env.fill n (i.take n))).sent (i.drop n) t := by
  have hrun : (recvVar env n).run i t = ⟨some (env.fill n (i.take n)), i.drop n, t, []⟩ := by
    rw [← bind_pure' (recvVar env n), run_recvVar_bind]
    rfl
  have htame : (recvVar env n).Tame id id fun _ _ => False := by
    rw [← bind_pure' (recvVar env n)]
    exact tame_recvVar _ fun _ _ => Tame.pure _
  rw [sent_bind_of hrun, sent_eq_nil htame.emits, List.nil_append]

/-- A field that is there, and what is sent after it. -/
theorem sent_recvVarW_append {v : Bytes} (hv : v.length = n) (f : Bytes → Code α) (rest : Bytes) (t : Tunnel) :
    (recvVarW env n >>= f).sent (v ++ rest) t = (f v).sent rest t := by
  rw [sent_recvVarW_bind, ← hv, List.take_left, List.drop_left, fill_of_length rfl]

/-- The first field of a payload, and what is sent after it. -/
theorem sent_recvVarW_first {payload : Bytes} (h : n ≤ payload.length) (f : Bytes → Code α) (t : Tunnel) :
    (recvVarW env n >>= f).sent payload t = (f (field payload 0 n)).sent (payload.drop n) t := by
  have hfill : env.fill n (payload.take n) = payload.take n := fill_of_length (List.length_take_of_le h)
  rw [sent_recvVarW_bind, hfill]
  rfl

/-- The next field. -/
theorem sent_recvVarW_field {payload : Bytes} {offset : Nat} (h : offset + n ≤ payload.length)
    (f : Bytes → Code α) (t : Tunnel) : (recvVarW env n >>= f).sent (payload.drop offset) t =
      (f (field payload offset n)).sent (payload.drop (offset + n)) t := by
  rw [sent_recvVarW_first env (by rw [List.length_drop]; omega), List.drop_drop]
  rfl

end Sent

end LavaTunnel
