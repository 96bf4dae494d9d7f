import LavaTunnel.Helper

/-!
# `LavaTunnel.Relay` — the handlers that pass a packet on

Most handlers of the two dispatch loops have one shape: receive some fields, each into a variable of its
own, then send the id and the same fields to the other side. What differs is data: the widths, and whether
a field goes through `recvW` and `sendW` or through the plain calls. `Relay` is that data, `relay` the
handler, and its lemmas say once what every relay does:

* `takes_relay` — a packet that is there in full is taken whole and passed on byte for byte;
* `segFree_relay` — it does not see segments, if its plain fields are single bytes.
-/

namespace LavaTunnel

open Wire Wire.Prog

/-- One field of a packet. -/
structure Field where
  width : Nat
  recvW : Bool
  sendW : Bool
deriving DecidableEq

/-- A field received by `recvW` and sent by `sendW`. -/
def wrapped (width : Nat) : Field := ⟨width, true, true⟩

/-- A field received by `recv` and sent by `send`. -/
def plain (width : Nat) : Field := ⟨width, false, false⟩

/-- A field received by `recvW` and sent by `send`. -/
def halfPlain (width : Nat) : Field := ⟨width, true, false⟩

/-- The call that receives a field. -/
def Field.get (env : Env) (f : Field) : Code Bytes :=
  if f.recvW then recvVarW env f.width else recvVar env f.width

/-- The call that sends a field. -/
def Field.put (f : Field) (v : Bytes) : Call := if f.sendW then .sendW v else .send v

/-- A handler that passes packets on: the id it is for, whether it sends the id by `sendW`, and the fields
    in the order in which they are received and sent. -/
structure Relay where
  id : UInt8
  sendW : Bool
  layout : List Field
deriving DecidableEq

/-- The length of the payload. -/
def Relay.width (r : Relay) : Nat := (r.layout.map Field.width).sum

/-- The calls that send the packet. -/
def Relay.calls (r : Relay) (vs : List Bytes) : List Call :=
  (if r.sendW then .sendW [r.id] else .send [r.id]) :: List.zipWith Field.put r.layout vs

/-- Receive the fields of a layout. -/
def recvFields (env : Env) : List Field → Code (List Bytes)
  | [] => pure []
  | f :: fs => do
      let v ← f.get env
      let vs ← recvFields (env.var 1) fs
      pure (v :: vs)

/-- Receive the fields and send them on. -/
def relay (env : Env) (dest : Socket) (r : Relay) : Code Unit := do
  let vs ← recvFields env r.layout
  packet dest (r.calls vs)

/-! ## The fields of a payload -/

@[simp] theorem Field.bytes_put (f : Field) (v : Bytes) : (f.put v).bytes = v := by
  unfold Field.put
  cases f.sendW <;> rfl

/-- The `n` bytes of a payload at an offset. -/
def field (payload : Bytes) (offset n : Nat) : Bytes := (payload.drop offset).take n

/-- The fields of a payload from an offset on. -/
def fieldsFrom (payload : Bytes) : Nat → List Nat → List Bytes
  | _, [] => []
  | offset, n :: widths => field payload offset n :: fieldsFrom payload (offset + n) widths

/-- A variable of one byte, element by element. -/
theorem singleton_headD {v : Bytes} (h : v.length = 1) (b : UInt8) : [v.headD b] = v := by
  obtain ⟨a, rfl⟩ := List.length_eq_one_iff.mp h
  rfl

theorem length_field {payload : Bytes} {offset n : Nat} (h : offset + n ≤ payload.length) :
    (field payload offset n).length = n := by
  unfold field
  rw [List.length_take, List.length_drop]
  omega

/-- A variable that a field is received into holds the field. -/
theorem fill_field (env : Env) {payload : Bytes} {offset n : Nat} (h : offset + n ≤ payload.length) :
    env.fill n (field payload offset n) = field payload offset n :=
  fill_of_length (length_field h)

theorem take_field (payload : Bytes) (offset n : Nat) :
    (field payload offset n).take n = field payload offset n := by
  unfold field
  rw [List.take_take, Nat.min_self]

/-- A payload is its fields, one after the other. -/
theorem flatten_fieldsFrom {payload : Bytes} {offset : Nat} (widths : List Nat)
    (h : payload.length = offset + widths.sum) :
    (fieldsFrom payload offset widths).flatten = payload.drop offset := by
  induction widths generalizing offset with
  | nil => exact (List.drop_eq_nil_of_le h.le).symm
  | cons n widths ih =>
      rw [List.sum_cons] at h
      rw [fieldsFrom, List.flatten_cons, ih (by omega), field, ← List.drop_drop, List.take_append_drop]

theorem length_fieldsFrom {payload : Bytes} {offset : Nat} (widths : List Nat)
    (h : payload.length = offset + widths.sum) :
    (fieldsFrom payload offset widths).map List.length = widths := by
  induction widths generalizing offset with
  | nil => rfl
  | cons n widths ih =>
      rw [List.sum_cons] at h
      rw [fieldsFrom, List.map_cons, length_field (by omega), ih (by omega)]

/-- The calls send the id and the fields. -/
theorem Relay.bytes_calls (r : Relay) {vs : List Bytes} (h : vs.length = r.layout.length) :
    (r.calls vs).flatMap Call.bytes = r.id :: vs.flatten := by
  have hfields : ∀ (fs : List Field) (vs : List Bytes), vs.length = fs.length →
      (List.zipWith Field.put fs vs).flatMap Call.bytes = vs.flatten := by
    intro fs
    -- field by field, each with its own value
    induction fs with
    | nil =>
        intro vs h
        rw [List.eq_nil_of_length_eq_zero h]
        rfl
    | cons f fs ih =>
        intro vs h
        cases vs with
        | nil => exact absurd h (by simp)
        | cons v vs =>
            rw [List.zipWith_cons_cons, List.flatMap_cons, Field.bytes_put, List.flatten_cons,
              ih vs (by simpa using h)]
  unfold Relay.calls
  rw [List.flatMap_cons, hfields _ _ h]
  cases r.sendW <;> rfl

/-! ## What a relay does -/

section Run

variable (env : Env)

/-- A field that is there is received, by either call. -/
theorem run_get_append {α : Type} {f : Field} {v : Bytes} (hv : v.length = f.width)
    (k : Bytes → Code α) (rest : Bytes) (t : Tunnel) :
    (f.get env >>= k).run (v ++ rest) t = (k v).run rest t := by
  unfold Field.get
  cases f.recvW with
  | true => exact run_recvVarW_append env hv k rest t
  | false => exact run_recvVar_append env hv k rest t

theorem run_recvFields (fs : List Field) {vs : List Bytes}
    (hvs : vs.map List.length = fs.map Field.width) (rest : Bytes) (t : Tunnel) :
    (recvFields env fs).run (vs.flatten ++ rest) t = ⟨some vs, rest, t, []⟩ := by
  induction fs generalizing env vs with
  | nil =>
      obtain rfl : vs = [] := by simpa using hvs
      rfl
  | cons f fs ih =>
      cases vs with
      | nil => exact absurd hvs (by simp)
      | cons v vs =>
          obtain ⟨hv, hvs⟩ : v.length = f.width ∧ vs.map List.length = fs.map Field.width := by
            simpa using hvs
          rw [recvFields, List.flatten_cons, List.append_assoc, run_get_append env hv,
            run_bind_of (ih (env.var 1) hvs)]
          rfl

/-- **A relay passes its packet on**: it takes the payload, leaves the state alone, and writes the id and
    the payload. -/
theorem takes_relay (dest : Socket) (r : Relay) {payload : Bytes} (h : payload.length = r.width)
    (t : Tunnel) :
    ∃ out, (relay env dest r).Takes payload t (some ()) t out ∧ stream dest out = r.id :: payload := by
  have hsum : payload.length = 0 + (r.layout.map Field.width).sum := by rw [h, Nat.zero_add, Relay.width]
  have hfields := length_fieldsFrom _ hsum
  have hflat := flatten_fieldsFrom _ hsum
  rw [List.drop_zero] at hflat
  refine ⟨written dest (r.calls (fieldsFrom payload 0 (r.layout.map Field.width))), fun rest => ?_, ?_⟩
  · conv_lhs => rw [← hflat]
    rw [relay, run_bind_of (run_recvFields env r.layout hfields rest t), run_packet, Outcome.after_nil]
  · rw [stream_written, r.bytes_calls (by simpa using congrArg List.length hfields), hflat]

/-- Whatever arrives, the variable of a field is filled. -/
theorem run_get_any {T : Type} [Transport T] [Delivers T] (f : Field) (i : T) (t : Tunnel) :
    ∃ v i', (f.get env).run i t = ⟨some v, i', t, []⟩ ∧ v.length = f.width := by
  unfold Field.get
  cases f.recvW with
  | true =>
      obtain ⟨got, i', -, hrun, -⟩ := run_recvWLoop f.width f.width [] i t (by simp)
      refine ⟨env.fill f.width got, i', ?_, length_fill env _ _⟩
      show (recvWLoop f.width f.width [] >>= _).run i t = _
      rw [run_bind_of hrun]
      rfl
  | false => exact ⟨_, _, rfl, length_fill env _ _⟩

theorem run_recvFields_any {T : Type} [Transport T] [Delivers T] (fs : List Field) (i : T) (t : Tunnel) :
    ∃ vs i', (recvFields env fs).run i t = ⟨some vs, i', t, []⟩ ∧ vs.map List.length = fs.map Field.width := by
  induction fs generalizing env i with
  | nil => exact ⟨[], i, rfl, rfl⟩
  | cons f fs ih =>
      obtain ⟨v, i₁, hget, hv⟩ := run_get_any env f i t
      obtain ⟨vs, i', hrun, hvs⟩ := ih (env.var 1) i₁
      refine ⟨v :: vs, i', ?_, by simp [hv, hvs]⟩
      rw [recvFields, run_bind_of hget, run_bind_of hrun]
      rfl

/-- Whatever arrives, a relay writes as much as its layout has. -/
theorem run_relay_any {T : Type} [Transport T] [Delivers T] (dest : Socket) (r : Relay) (i : T) (t : Tunnel) :
    ∃ i' out, (relay env dest r).run i t = ⟨some (), i', t, out⟩ ∧
      (stream dest out).length = r.width + 1 := by
  obtain ⟨vs, i', hrun, hvs⟩ := run_recvFields_any env r.layout i t
  refine ⟨i', written dest (r.calls vs), ?_, ?_⟩
  · rw [relay, run_bind_of hrun, run_packet, Outcome.after_nil]
  · rw [stream_written, r.bytes_calls (by simpa using congrArg List.length hvs), List.length_cons,
      List.length_flatten, hvs, Relay.width]

/-! ## A field at a time -/

variable {α : Type} {payload : Bytes}

/-- The first field of a payload that is there. -/
theorem run_recvVarW_first {n : Nat} (h : n ≤ payload.length) (f : Bytes → Code α) (rest : Bytes)
    (t : Tunnel) : (recvVarW env n >>= f).run (payload ++ rest) t =
      (f (field payload 0 n)).run (payload.drop n ++ rest) t := by
  conv_lhs => rw [← List.take_append_drop n payload, List.append_assoc]
  rw [run_recvVarW_append env (List.length_take_of_le h), field, List.drop_zero]

/-- The next field of a payload that is there. -/
theorem run_recvVarW_field {offset n : Nat} (h : offset + n ≤ payload.length) (f : Bytes → Code α)
    (rest : Bytes) (t : Tunnel) : (recvVarW env n >>= f).run (payload.drop offset ++ rest) t =
      (f (field payload offset n)).run (payload.drop (offset + n) ++ rest) t := by
  rw [run_recvVarW_first env (by rw [List.length_drop]; omega), List.drop_drop, field, field,
    List.drop_zero]

theorem run_recvW_field {offset n : Nat} (h : offset + n ≤ payload.length) (f : Int × Bytes → Code α)
    (rest : Bytes) (t : Tunnel) : (recvW n >>= f).run (payload.drop offset ++ rest) t =
      (f (n, field payload offset n)).run (payload.drop (offset + n) ++ rest) t := by
  have hlen : n ≤ (payload.drop offset).length := by rw [List.length_drop]; omega
  rw [run_recvW_bind, List.take_append_of_le_length hlen, List.drop_append_of_le_length hlen,
    List.drop_drop]
  show (f (((field payload offset n).length : Nat), field payload offset n)).run _ t = _
  rw [length_field h]

/-- A single `recv` of a byte that is there. -/
theorem run_recvCall_field {offset n : Nat} (h : offset + n ≤ payload.length)
    (f : Option Bytes → Code α) (rest : Bytes) (t : Tunnel) :
    (recvCall n >>= f).run (payload.drop offset ++ rest) t =
      (f (some (field payload offset n))).run (payload.drop (offset + n) ++ rest) t := by
  have hlen : n ≤ (payload.drop offset).length := by rw [List.length_drop]; omega
  rw [run_recvCall_bind]
  simp only [Transport.recv]
  rw [List.take_append_of_le_length hlen, List.drop_append_of_le_length hlen, List.drop_drop, field]

theorem run_recvVar_first {n : Nat} (h : n ≤ payload.length) (f : Bytes → Code α) (rest : Bytes)
    (t : Tunnel) : (recvVar env n >>= f).run (payload ++ rest) t =
      (f (field payload 0 n)).run (payload.drop n ++ rest) t := by
  conv_lhs => rw [← List.take_append_drop n payload, List.append_assoc]
  rw [run_recvVar_append env (List.length_take_of_le h), field, List.drop_zero]

theorem run_recvVar_field {offset n : Nat} (h : offset + n ≤ payload.length) (f : Bytes → Code α)
    (rest : Bytes) (t : Tunnel) : (recvVar env n >>= f).run (payload.drop offset ++ rest) t =
      (f (field payload offset n)).run (payload.drop (offset + n) ++ rest) t := by
  rw [run_recvVar_first env (by rw [List.length_drop]; omega), List.drop_drop, field, field,
    List.drop_zero]

/-- Behind the last field the rest of the stream begins. -/
theorem drop_length_append {n : Nat} (h : payload.length = n) (rest : Bytes) :
    payload.drop n ++ rest = rest := by
  rw [List.drop_eq_nil_of_le h.le, List.nil_append]

/-- The calls that send an id and the fields of a payload send the payload. -/
theorem stream_fields {dest : Socket} {id : UInt8} (widths : List Nat) (h : payload.length = widths.sum)
    {calls : List Call} (hc : calls.flatMap Call.bytes = id :: (fieldsFrom payload 0 widths).flatten) :
    stream dest (written dest calls) = id :: payload := by
  rw [stream_written, hc, flatten_fieldsFrom widths (by omega), List.drop_zero]

end Run

/-! ## Segments -/

/-- No call of the layout can see where a segment ends. -/
def Field.Safe (f : Field) : Prop := f.recvW = true ∨ f.width ≤ 1

instance (f : Field) : Decidable f.Safe := by
  unfold Field.Safe
  exact inferInstance

theorem segFree_get (env : Env) {f : Field} (h : f.Safe) : (f.get env).SegFree := by
  unfold Field.get
  cases hf : f.recvW with
  | true => exact segFree_recvVarW env f.width
  | false => exact segFree_recvVar env (h.resolve_left (by simp [hf]))

theorem segFree_recvFields (env : Env) {fs : List Field} (h : ∀ f ∈ fs, f.Safe) :
    (recvFields env fs).SegFree := by
  induction fs generalizing env with
  | nil => exact SegFree.pure []
  | cons f fs ih =>
      refine SegFree.bind (segFree_get env (h f List.mem_cons_self)) (fun v => ?_)
      exact SegFree.bind (ih (env.var 1) (fun g hg => h g (List.mem_cons_of_mem f hg)))
        (fun vs => SegFree.pure _)

/-- **A relay whose plain fields are single bytes does not see segments.** -/
theorem segFree_relay (env : Env) (dest : Socket) {r : Relay} (h : ∀ f ∈ r.layout, f.Safe) :
    (relay env dest r).SegFree :=
  SegFree.bind (segFree_recvFields env h) (fun _ => SegFree.packet _ _)

/-- **A relay with a plain field of several bytes does see them.** When the stream comes in single bytes,
    the second byte of its first such field is whatever was in the variable. -/
theorem run_recvFields_drip {fs : List Field} (hbad : ∃ f ∈ fs, ¬ f.Safe) :
    ∃ k < (fs.map Field.width).sum, ∀ (env : Env) (b : UInt8), (∀ j i, env.junk j i = b) →
      ∀ payload : Bytes, payload.length = (fs.map Field.width).sum → ∀ (rest : Bytes) (t : Tunnel),
        ∃ vs i', (recvFields env fs).run (⟨payload ++ rest⟩ : Drip) t = ⟨some vs, i', t, []⟩ ∧
          vs.map List.length = fs.map Field.width ∧ vs.flatten[k]? = some b := by
  induction fs with
  | nil => exact absurd hbad (by simp)
  | cons f fs ih =>
      by_cases hf : f.Safe
      · obtain ⟨k, hk, hrun⟩ := ih (by simpa [hf] using hbad)
        refine ⟨f.width + k, by simpa using hk, fun env b hb payload hlen rest t => ?_⟩
        have hle : f.width ≤ payload.length := by rw [hlen, List.map_cons, List.sum_cons]; omega
        have hfirst : (payload.take f.width).length = f.width := List.length_take_of_le hle
        have htakes : (f.get env).Takes (payload.take f.width) t (some (payload.take f.width)) t [] := by
          intro rest
          rw [← bind_pure' (f.get env), run_get_append env hfirst]
          rfl
        have hsplit : payload ++ rest = payload.take f.width ++ (payload.drop f.width ++ rest) := by
          rw [← List.append_assoc, List.take_append_drop]
        obtain ⟨⟨i₁⟩, hi₁, hget⟩ := (segFree_get env hf).run_takes htakes
          (i := (⟨payload ++ rest⟩ : Drip)) hsplit
        obtain rfl : i₁ = payload.drop f.width ++ rest := hi₁
        obtain ⟨vs, i', hrest, hvs, hflat⟩ := hrun (env.var 1) b (fun j => hb (1 + j)) (payload.drop f.width)
          (by rw [List.length_drop, hlen, List.map_cons, List.sum_cons]; omega) rest t
        refine ⟨payload.take f.width :: vs, i', ?_, by simp [hfirst, hvs], ?_⟩
        · rw [recvFields, run_bind_of hget, run_bind_of hrest]
          rfl
        · rw [List.flatten_cons, List.getElem?_append_right (by omega), hfirst, Nat.add_sub_cancel_left, hflat]
      · obtain ⟨hplain, hwidth⟩ : f.recvW = false ∧ 1 < f.width := by
          simpa [Field.Safe] using hf
        refine ⟨1, by rw [List.map_cons, List.sum_cons]; omega, fun env b hb payload hlen rest t => ?_⟩
        obtain ⟨c, cs, rfl⟩ := List.exists_cons_of_length_pos (l := payload)
          (by rw [hlen, List.map_cons, List.sum_cons]; omega)
        -- the call gets one byte
        have hone : min f.width 1 = 1 := by omega
        have hget : (f.get env).run (⟨c :: cs ++ rest⟩ : Drip) t =
            ⟨some (env.fill f.width [c]), ⟨cs ++ rest⟩, t, []⟩ := by
          unfold Field.get
          rw [hplain]
          show (⟨some (env.fill f.width (((c :: cs ++ rest).take (min f.width 1)))),
            (⟨(c :: cs ++ rest).drop (min f.width 1)⟩ : Drip), t, []⟩ : Outcome Tunnel Socket Drip Bytes) = _
          rw [hone]
          rfl
        obtain ⟨vs, i', hrest, hvs⟩ := run_recvFields_any (env.var 1) fs (⟨cs ++ rest⟩ : Drip) t
        refine ⟨env.fill f.width [c] :: vs, i', ?_, by simp [length_fill, hvs], ?_⟩
        · rw [recvFields, run_bind_of hget, run_bind_of hrest]
          rfl
        · rw [List.flatten_cons, List.getElem?_append_left (by rw [length_fill]; omega),
            getElem?_fill env (by simp) hwidth, hb]

theorem run_relay_drip {r : Relay} (hbad : ∃ f ∈ r.layout, ¬ f.Safe) :
    ∃ k < r.width, ∀ (env : Env) (b : UInt8), (∀ j i, env.junk j i = b) → ∀ (dest : Socket) (payload : Bytes),
      payload.length = r.width → ∀ (rest : Bytes) (t : Tunnel), ∃ i' out,
        (relay env dest r).run (⟨payload ++ rest⟩ : Drip) t = ⟨some (), i', t, out⟩ ∧
          (stream dest out)[k + 1]? = some b := by
  obtain ⟨k, hk, hrun⟩ := run_recvFields_drip hbad
  refine ⟨k, hk, fun env b hb dest payload hlen rest t => ?_⟩
  obtain ⟨vs, i', hfields, hvs, hflat⟩ := hrun env b hb payload hlen rest t
  refine ⟨i', written dest (r.calls vs), ?_, ?_⟩
  · rw [relay, run_bind_of hfields, run_packet, Outcome.after_nil]
  · rw [stream_written, r.bytes_calls (by simpa using congrArg List.length hvs), List.getElem?_cons_succ, hflat]

end LavaTunnel
