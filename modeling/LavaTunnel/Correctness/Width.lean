import LavaTunnel.Correctness.Cpe

/-!
# `LavaTunnel.Correctness.Width` — the width of the coordinates

With `ExtEntityPositions` the coordinates of three packets have four bytes instead of two. Seven places of the
code handle or make up such a packet. One of them knows of the extension: the position from the server. The
entity from the server is received in the right width but not passed on, and the other five always use two
bytes.
-/

namespace LavaTunnel

open Wire Wire.Prog

/-- The places where coordinates pass through the tunnel, or come from it. -/
inductive Place where
  | serverAddEntity
  | serverPosition
  | serverExtAddEntity2
  | clientPosition
  | clientExtAddEntity2
  | teleport
  | move
deriving DecidableEq

/-- The width of a coordinate. -/
def Tunnel.coordWidth (t : Tunnel) : Nat := if t.negotiated CPE.extEntityPos then 4 else 2

/-- A round takes every packet with three coordinates of this width, which start `before` bytes into the payload
    and are followed by yaw and pitch, and passes them on if it passes on anything. -/
def RelaysWidth {α : Type} (c : Code α) (dest : Socket) (id : UInt8) (before width : Nat) (shown : Prop)
    (t : Tunnel) : Prop :=
  ∀ payload : Bytes, payload.length = before + 3 * width + 2 → ∃ r t' out, c.Takes (id :: payload) t r t' out ∧
    (shown → ∃ lead more, lead <:+ payload.take before ∧
      stream dest out = id :: (lead ++ payload.drop before) ++ more)

/-- A packet of the tunnel with three coordinates of this width. -/
def InjectsWidth (c : Code Unit) (dest : Socket) (width : Nat) (t : Tunnel) : Prop :=
  ∃ coords last : Bytes, coords.length = 3 * width ∧ last.length = 2 ∧
    sentTo dest (c.sent ([] : Bytes) t) = [0x08 :: 255 :: (coords ++ last)]

/-- The place uses the width that has been negotiated. -/
def WidthAgrees (env : Env) (t : Tunnel) : Place → Prop
  | .serverAddEntity => ∀ l, RelaysWidth (mcConnect env l) serverSock 0x07 65 t.coordWidth True t
  | .serverPosition => ∀ l, RelaysWidth (mcConnect env l) serverSock 0x08 1 t.coordWidth True t
  | .serverExtAddEntity2 => ∀ l, RelaysWidth (mcConnect env l) serverSock 0x21 129 t.coordWidth True t
  | .clientPosition => ∀ l, RelaysWidth (tunnelServer env l) tunnelSock 0x08 1 t.coordWidth (t.hide = false) t
  | .clientExtAddEntity2 => ∀ l, RelaysWidth (tunnelServer env l) tunnelSock 0x21 129 t.coordWidth True t
  | .teleport => ∀ x y z yaw pitch, InjectsWidth (tunnelTeleport x y z yaw pitch) serverSock t.coordWidth t
  | .move => ∀ x y z yaw pitch, InjectsWidth (tunnelMove x y z yaw pitch) tunnelSock t.coordWidth t

/-! ## Rounds -/

section Rounds

variable {env : Env} {id : UInt8} {c : Code Unit} {payload : Bytes} {t t' : Tunnel} {out : List (Socket × Bytes)}

theorem takes_round_mcConnect (hc : (id, c) ∈ Client.handlers env) (h : c.Takes payload t (some ()) t' out)
    (l : McLocals) : (mcConnect env l).Takes (id :: payload) t (some l) t' out := by
  have hdispatch := h.then (f := fun _ => pure l) (Takes.pure l)
  rw [List.append_nil, ← Client.dispatch_of_mem hc] at hdispatch
  exact takes_mcConnect (p := (id, payload)) hdispatch

theorem takes_round_tunnelServer (hc : (id, c) ∈ Server.handlers env) (h : c.Takes payload t (some ()) t' out)
    (l : ServerLocals) : (tunnelServer env l).Takes (id :: payload) t (some l) t' out := by
  have hdispatch := h.then (f := fun _ => pure l) (Takes.pure l)
  rw [List.append_nil, ← Server.dispatch_of_mem hc] at hdispatch
  exact takes_tunnelServer (p := (id, payload)) hdispatch

end Rounds

section Relays

variable {α : Type} {c : Code α} {dest : Socket} {id : UInt8} {before width : Nat} {shown : Prop} {t : Tunnel}

/-- What is taken is determined: a program that takes a part of a packet does not take all of it. -/
theorem not_takes_of_take {payload : Bytes} {n : Nat} (hn : n < payload.length) {r r' : Option α} {t' t'' : Tunnel}
    {out out' : List (Socket × Bytes)} (h : c.Takes (id :: payload.take n) t r t' out) :
    ¬ c.Takes (id :: payload) t r' t'' out' := by
  intro hall
  have h₁ := h (payload.drop n)
  have h₂ := hall []
  rw [List.cons_append, List.take_append_drop] at h₁
  rw [List.append_nil] at h₂
  have hinput : payload.drop n = [] := congrArg Outcome.input (h₁.symm.trans h₂)
  have hlen := congrArg List.length hinput
  rw [List.length_drop, List.length_nil] at hlen
  omega

/-- A round that takes less than a packet of this width does not relay it. -/
theorem not_relaysWidth_of_take {n : Nat} (hn : n < before + 3 * width + 2)
    (h : ∀ payload : Bytes, payload.length = n → ∃ r t' out, c.Takes (id :: payload) t r t' out) :
    ¬ RelaysWidth c dest id before width shown t := by
  intro hall
  have hlen : (List.replicate (before + 3 * width + 2) (0 : UInt8)).length = before + 3 * width + 2 :=
    List.length_replicate
  obtain ⟨r, t', out, htakes, -⟩ := hall _ hlen
  obtain ⟨r', t'', out', htakes'⟩ := h ((List.replicate (before + 3 * width + 2) 0).take n)
    (List.length_take_of_le (by omega))
  exact not_takes_of_take (by omega) htakes' htakes

/-- A round that passes on the whole packet. -/
theorem relaysWidth_of_takes (h : ∀ payload : Bytes, payload.length = before + 3 * width + 2 → ∃ r t' out more,
    c.Takes (id :: payload) t r t' out ∧ stream dest out = id :: payload ++ more) :
    RelaysWidth c dest id before width shown t := by
  intro payload hlen
  obtain ⟨r, t', out, more, htakes, hout⟩ := h payload hlen
  refine ⟨r, t', out, htakes, fun _ => ⟨payload.take before, more, List.suffix_refl _, ?_⟩⟩
  rw [List.take_append_drop]
  exact hout

end Relays

/-! ## The places -/

section Places

variable (env : Env) (t : Tunnel)

theorem coordWidth_wide (h : t.negotiated CPE.extEntityPos = true) : t.coordWidth = 4 := if_pos h

theorem coordWidth_narrow (h : t.negotiated CPE.extEntityPos = false) : t.coordWidth = 2 :=
  if_neg (Bool.eq_false_iff.mp h)

/-- What a handler does with the only length it takes, in both modes. -/
theorem takes_addEntity {payload : Bytes} (h : payload.length = 73) (l : McLocals) :
    ∃ r t' out, (mcConnect env l).Takes (0x07 :: payload) t r t' out ∧ stream serverSock out = 0x07 :: payload := by
  have hmem : (0x07, Client.spawnPlayer env) ∈ Client.handlers env := Client.own_mem (by repeat constructor)
  refine ⟨_, _, _, takes_round_mcConnect hmem (Client.takes_spawnPlayer env t h) l, ?_⟩
  exact stream_fields [1, 64, 2, 2, 2, 1, 1] h rfl

theorem takes_serverPosition {payload : Bytes} (h : payload.length = 1 + 3 * t.coordWidth + 2) (l : McLocals) :
    ∃ r t' out more, (mcConnect env l).Takes (0x08 :: payload) t r t' out ∧
      stream serverSock out = 0x08 :: payload ++ more := by
  have hmem : (0x08, Client.posAndOrientation env) ∈ Client.handlers env := Client.own_mem (by repeat constructor)
  cases hwide : t.negotiated CPE.extEntityPos with
  | true =>
      rw [coordWidth_wide t hwide] at h
      obtain ⟨more, htakes, -⟩ := Client.takes_posAndOrientation env t 4 (if_pos hwide) h
      refine ⟨_, _, _, stream serverSock more, takes_round_mcConnect hmem htakes l, ?_⟩
      rw [stream_append]
      exact congrArg (· ++ stream serverSock more) (stream_fields [1, 4, 4, 4, 1, 1] h rfl)
  | false =>
      rw [coordWidth_narrow t hwide] at h
      obtain ⟨more, htakes, -⟩ := Client.takes_posAndOrientation env t 2 (if_neg (by simp [hwide])) h
      refine ⟨_, _, _, stream serverSock more, takes_round_mcConnect hmem htakes l, ?_⟩
      rw [stream_append]
      exact congrArg (· ++ stream serverSock more) (stream_fields [1, 2, 2, 2, 1, 1] h rfl)

theorem takes_clientPosition {payload : Bytes} (h : payload.length = 9) (l : ServerLocals) :
    ∃ r t' out, (tunnelServer env l).Takes (0x08 :: payload) t r t' out ∧
      (t.hide = false → stream tunnelSock out = 0x08 :: payload) := by
  have hmem : (0x08, Server.posUpdate env) ∈ Server.handlers env := Server.own_mem (by repeat constructor)
  cases hhide : t.hide with
  | true =>
      exact ⟨_, _, _, takes_round_tunnelServer hmem (Server.takes_posUpdate_hidden env t hhide h) l,
        fun hshown => absurd hshown (by simp)⟩
  | false =>
      exact ⟨_, _, _, takes_round_tunnelServer hmem (Server.takes_posUpdate env t hhide h) l,
        fun _ => stream_fields [1, 2, 2, 2, 1, 1] h rfl⟩

/-- `entityid` is not passed on, the coordinates are. -/
theorem takes_clientEntity {payload : Bytes} (h : payload.length = 137) (l : ServerLocals) :
    ∃ r t' out, (tunnelServer env l).Takes (0x21 :: payload) t r t' out ∧
      stream tunnelSock out = 0x21 :: payload.drop 1 := by
  have hmem : (0x21, Server.extAddEntity2 env) ∈ Server.handlers env := Server.own_mem (by repeat constructor)
  refine ⟨_, _, _, takes_round_tunnelServer hmem (Server.takes_extAddEntity2 env t h) l, ?_⟩
  rw [← flatten_fieldsFrom [64, 64, 2, 2, 2, 1, 1] h, stream_written]
  rfl

/-- Coordinates of two bytes are not coordinates of four. -/
theorem injectsWidth_iff (x y z : Int16) (yaw pitch : UInt8) (dest : Socket) {c : Code Unit}
    (hc : c = packet dest [.sendW [0x08], .sendW [255], .sendW (wire x), .sendW (wire y), .sendW (wire z),
      .sendW [yaw], .sendW [pitch]]) (width : Nat) : InjectsWidth c dest width t ↔ width = 2 := by
  have hsent : sentTo dest (c.sent ([] : Bytes) t) =
      [0x08 :: 255 :: ((wire x ++ (wire y ++ wire z)) ++ [yaw, pitch])] := by
    rw [hc]
    show (List.filter (fun e => decide (e.1 = dest)) [(dest, _)]).map Prod.snd = _
    rw [List.filter_cons_of_pos (by simp)]
    simp
  have hlen : (wire x ++ (wire y ++ wire z)).length = 6 := by simp
  unfold InjectsWidth
  rw [hsent]
  constructor
  · rintro ⟨coords, last, hcoords, hlast, heq⟩
    have hpacket := congrArg List.length (List.cons.inj (List.cons.inj (List.cons.inj heq).1).2).2
    have hwritten : ((wire x ++ (wire y ++ wire z)) ++ [yaw, pitch]).length = 8 := by
      rw [List.length_append, hlen]
      rfl
    rw [hwritten, List.length_append, hcoords, hlast] at hpacket
    omega
  · rintro rfl
    exact ⟨_, [yaw, pitch], hlen, rfl, rfl⟩

/-- A statement about every `i` that does not depend on it. -/
theorem forall_iff {ι : Type} {P : ι → Prop} {q : Prop} (i : ι) (h : ∀ i, P i ↔ q) : (∀ i, P i) ↔ q :=
  ⟨fun hall => (h i).mp (hall i), fun hq j => (h j).mpr hq⟩

theorem coordWidth_eq_two_iff : t.coordWidth = 2 ↔ t.negotiated CPE.extEntityPos = false := by
  cases hwide : t.negotiated CPE.extEntityPos with
  | true => simp [coordWidth_wide t hwide]
  | false => simp [coordWidth_narrow t hwide]

/-- A place that takes packets of two-byte coordinates only. -/
theorem relaysWidth_iff {α : Type} {c : Code α} {dest : Socket} {id : UInt8} {before : Nat} {shown : Prop}
    (hnarrow : ∀ payload : Bytes, payload.length = before + 3 * 2 + 2 → ∃ r t' out,
      c.Takes (id :: payload) t r t' out ∧
      (shown → ∃ lead more, lead <:+ payload.take before ∧
        stream dest out = id :: (lead ++ payload.drop before) ++ more)) :
    RelaysWidth c dest id before t.coordWidth shown t ↔ t.negotiated CPE.extEntityPos = false := by
  constructor
  · intro hall
    by_contra hne
    rw [coordWidth_wide t (Bool.eq_true_of_not_eq_false hne)] at hall
    refine not_relaysWidth_of_take (n := before + 3 * 2 + 2) (by omega) (fun payload h => ?_) hall
    obtain ⟨r, t', out, htakes, -⟩ := hnarrow payload h
    exact ⟨r, t', out, htakes⟩
  · intro hwide
    rw [coordWidth_narrow t hwide]
    exact hnarrow

/-- **The coordinates have the negotiated width** in every place just if it is two bytes, but for the position
    from the server, which has it always. -/
theorem widthAgrees_iff (place : Place) :
    WidthAgrees env t place ↔ t.negotiated CPE.extEntityPos = false ∨ place = .serverPosition := by
  cases place with
  | serverAddEntity =>
      have hiff : ∀ l, RelaysWidth (mcConnect env l) serverSock 0x07 65 t.coordWidth True t ↔
          t.negotiated CPE.extEntityPos = false := by
        refine fun l => relaysWidth_iff t (fun payload h => ?_)
        obtain ⟨r, t', out, htakes, hout⟩ := takes_addEntity env t h l
        refine ⟨r, t', out, htakes, fun _ => ⟨payload.take 65, [], List.suffix_refl _, ?_⟩⟩
        rw [List.take_append_drop, List.append_nil]
        exact hout
      exact (forall_iff {} hiff).trans (or_iff_left (by decide)).symm
  | serverPosition =>
      refine ⟨fun _ => Or.inr rfl, fun _ l => relaysWidth_of_takes (fun payload h => ?_)⟩
      exact takes_serverPosition env t h l
  | serverExtAddEntity2 =>
      have hmem : (0x21, Client.extAddEntity2 env) ∈ Client.handlers env := Client.own_mem (by repeat constructor)
      refine Iff.trans ⟨fun hall => ?_, fun hwide l => ?_⟩ (or_iff_left (by decide)).symm
      · by_contra hne
        have hwide : t.negotiated CPE.extEntityPos = true := Bool.eq_true_of_not_eq_false hne
        have hwidth : (List.replicate 143 (0 : UInt8)).length = 143 := List.length_replicate
        have hlen : (List.replicate 143 (0 : UInt8)).length = 129 + 3 * t.coordWidth + 2 := by
          rw [coordWidth_wide t hwide, hwidth]
        -- the packet is taken, but nothing is written
        obtain ⟨r, t', out, htakes, hout⟩ := hall {} _ hlen
        have hsilent := takes_round_mcConnect hmem (Client.takes_extAddEntity2_wide env t hwide hwidth) {}
        have hnil : out = [] := congrArg Outcome.out ((htakes []).symm.trans (hsilent []))
        obtain ⟨lead, more, -, hstream⟩ := hout trivial
        rw [hnil] at hstream
        exact absurd hstream (by simp)
      · refine relaysWidth_of_takes (fun payload h => ?_)
        rw [coordWidth_narrow t hwide] at h
        refine ⟨_, _, _, [], takes_round_mcConnect hmem (Client.takes_extAddEntity2 env t hwide h) l, ?_⟩
        rw [List.append_nil]
        exact stream_fields [1, 64, 64, 2, 2, 2, 1, 1] h rfl
  | clientPosition =>
      have hiff : ∀ l, RelaysWidth (tunnelServer env l) tunnelSock 0x08 1 t.coordWidth (t.hide = false) t ↔
          t.negotiated CPE.extEntityPos = false := by
        refine fun l => relaysWidth_iff t (fun payload h => ?_)
        obtain ⟨r, t', out, htakes, hout⟩ := takes_clientPosition env t h l
        refine ⟨r, t', out, htakes, fun hshown => ⟨payload.take 1, [], List.suffix_refl _, ?_⟩⟩
        rw [List.take_append_drop, List.append_nil]
        exact hout hshown
      exact (forall_iff {} hiff).trans (or_iff_left (by decide)).symm
  | clientExtAddEntity2 =>
      have hiff : ∀ l, RelaysWidth (tunnelServer env l) tunnelSock 0x21 129 t.coordWidth True t ↔
          t.negotiated CPE.extEntityPos = false := by
        refine fun l => relaysWidth_iff t (fun payload h => ?_)
        obtain ⟨r, t', out, htakes, hout⟩ := takes_clientEntity env t h l
        refine ⟨r, t', out, htakes, fun _ => ⟨(payload.take 129).drop 1, [], List.drop_suffix _ _, ?_⟩⟩
        rw [hout, List.append_nil, ← List.drop_append_of_le_length (by rw [List.length_take]; omega),
          List.take_append_drop]
      exact (forall_iff {} hiff).trans (or_iff_left (by decide)).symm
  | teleport =>
      have hiff : ∀ x y z yaw pitch, InjectsWidth (tunnelTeleport x y z yaw pitch) serverSock t.coordWidth t ↔
          t.negotiated CPE.extEntityPos = false :=
        fun x y z yaw pitch => (injectsWidth_iff t x y z yaw pitch serverSock rfl _).trans (coordWidth_eq_two_iff t)
      refine Iff.trans ?_ (or_iff_left (by decide)).symm
      exact ⟨fun hall => (hiff 0 0 0 0 0).mp (hall 0 0 0 0 0), fun hwide x y z yaw pitch =>
        (hiff x y z yaw pitch).mpr hwide⟩
  | move =>
      have hiff : ∀ x y z yaw pitch, InjectsWidth (tunnelMove x y z yaw pitch) tunnelSock t.coordWidth t ↔
          t.negotiated CPE.extEntityPos = false :=
        fun x y z yaw pitch => (injectsWidth_iff t x y z yaw pitch tunnelSock rfl _).trans (coordWidth_eq_two_iff t)
      refine Iff.trans ?_ (or_iff_left (by decide)).symm
      exact ⟨fun hall => (hiff 0 0 0 0 0).mp (hall 0 0 0 0 0), fun hwide x y z yaw pitch =>
        (hiff x y z yaw pitch).mpr hwide⟩

end Places

/-- The packet that announces `ExtEntityPositions`. -/
def extEntityPositions : Bytes := 0x11 :: (toMCString (ascii "ExtEntityPositions") ++ [0, 0, 0, 1])

/-- The state in which the client has announced the extension, and then the server has. -/
def wideSession : Tunnel :=
  ((mcConnect {} {}).run extEntityPositions ((tunnelServer {} {}).run extEntityPositions {}).state).state

theorem negotiated_wideSession : wideSession.negotiated CPE.extEntityPos = true := by
  decide +kernel

/-- **In a wide session** the tunnel teleports the client with two-byte coordinates. -/
theorem teleport_narrow_in_wideSession : ¬ ∀ place, WidthAgrees {} wideSession place := by
  intro hall
  have hwidth := (injectsWidth_iff wideSession 0 0 0 0 0 serverSock rfl _).mp (hall .teleport 0 0 0 0 0)
  rw [coordWidth_wide _ negotiated_wideSession] at hwidth
  exact absurd hwidth (by decide)

end LavaTunnel
