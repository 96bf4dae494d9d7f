import LavaTunnel.Correctness.Http
import LavaTunnel.Correctness.Info

/-!
# `LavaTunnel.Correctness.Api` — the values that `apiInfo` takes

`apiInfo` never looks at a name. It takes the values of the fourth, the sixth and the ninth field of the first server,
as they are written, and copies them over what was there before without a terminator.
-/

namespace LavaTunnel

open Wire

/-! ## Answers -/

/-- The text of an answer that begins with a list of servers: the first server has scalar fields, the other servers
    and the other members of the answer are any. -/
structure ServerList where
  lead : Bytes := []
  before : Bytes := []
  servers : Label
  inside : Bytes := []
  fields : List Member
  gap : Bytes := []
  behind : Bytes := []
  others : Items := .nil []
  after : Bytes := []
  more : Items := .nil []
  trail : Bytes := []

/-- The first server. -/
def ServerList.first (r : ServerList) : Document := ⟨[], .object (Items.ofMembers r.gap r.fields), []⟩

/-- The answer. -/
def ServerList.answer (r : ServerList) : Document :=
  ⟨r.lead, .object (.cons r.before (some r.servers)
    (.array (.cons r.inside none r.first.value r.behind r.others)) r.after r.more), r.trail⟩

/-- A well-formed answer whose first server has an address, an `mppass` and a port. -/
structure Response extends ServerList where
  ip : Member
  mppass : Member
  port : Member
  wellFormed : toServerList.answer.wellFormed = true
  servers_name : unescape servers.name = ascii "servers"
  scalar : ∀ m ∈ fields, m.value.isScalar = true
  names : (fields.map Member.name).Nodup
  ip_mem : ip ∈ fields ∧ ip.name = ascii "ip"
  mppass_mem : mppass ∈ fields ∧ mppass.name = ascii "mppass"
  port_mem : port ∈ fields ∧ port.name = ascii "port"
  short : ∀ m ∈ [ip, mppass, port], m.value.meaning.length < 64

/-- jsmn finds the tokens of a well-formed text in their order, if there is room for them. -/
def Documented (jsmn : Jsmn) (d : Document) : Prop :=
  d.wellFormed = true → ∀ room, jsmn d.text room = if d.tokens.length ≤ room then some d.tokens else none

/-- **The fields are read by their names.** -/
def ReadsByName (r : Response) (result : Option Login) : Prop :=
  ∃ l, result = some l ∧ cstr l.ipa = r.ip.value.meaning ∧ cstr l.mppass = r.mppass.value.meaning ∧
    (l.port : ℚ) = numeric r.port.value.meaning

/-! ## What is read -/

/-- The text of the value of field `k`. If there is no such field, the token is what was on the stack. -/
def selected (stack : Stack) (r : Response) (k : Nat) : Option Bytes :=
  match r.fields[k]? with
  | some m => some m.value.content
  | none => cutString stack.around (r.first.text ++ [0]) (stack.kens (2 * k + 2))

/-- A text over what was in a buffer, which shows behind it, is this value. -/
def LeavesValue (old : Bytes) (text : Option Bytes) (value : Bytes) : Prop :=
  ∃ t, text = some t ∧ t ++ cstr (old.drop t.length) = value

/-- The fields are where `apiInfo` looks for them. -/
def InPlace (stack : Stack) (r : Response) (l : Login) : Prop :=
  LeavesValue l.ipa (selected stack r 3) r.ip.value.meaning ∧
    LeavesValue l.mppass (selected stack r 5) r.mppass.value.meaning ∧
    ∃ t, selected stack r 8 = some t ∧ (atoi t : ℚ) = numeric r.port.value.meaning

/-- The answer has at most 256 tokens, and it has the text that `apiInfo` looks for. -/
def Accepted (r : Response) : Prop :=
  r.answer.tokens.length ≤ 256 ∧ strstr r.answer.text (ascii "\"ip\": ") = true

/-! ## Cutting -/

section Cutting

variable {around : Int → UInt8} {text piece rest buffer : Bytes} {tok : Token}

theorem cuts_append (h : tok.Cuts text piece) (rest : Bytes) : tok.Cuts (text ++ rest) piece := by
  obtain ⟨before, after, rfl, htok⟩ := h
  exact ⟨before, after ++ rest, by rw [List.append_assoc], htok⟩

theorem zero_notMem_of_cuts (h : tok.Cuts text piece) (h0 : 0 ∉ text) : 0 ∉ piece := by
  obtain ⟨before, after, rfl, _⟩ := h
  exact fun hmem => h0 (List.mem_append_left _ (List.mem_append_right _ hmem))

theorem byteAt_of_lt {i : Nat} (h : i < buffer.length) : byteAt around buffer i = buffer[i] := by
  unfold byteAt
  rw [if_pos ⟨by omega, by omega⟩, Int.toNat_natCast, List.getD_eq_getElem?_getD, List.getElem?_eq_getElem h,
    Option.getD_some]

/-- A token of the text cuts its piece out. -/
theorem cut_of_cuts (h : tok.Cuts buffer piece) : cut around buffer tok = some piece := by
  obtain ⟨before, after, rfl, rfl⟩ := h
  unfold cut Token.at
  dsimp only
  rw [if_neg (by omega), add_sub_cancel_left, Int.toNat_natCast]
  congr 1
  apply List.ext_getElem
  · simp
  · intro k hk hk'
    have hlt : before.length + k < (before ++ piece ++ after).length := by
      simp only [List.length_append]
      omega
    rw [List.getElem_map, List.getElem_range, ← Nat.cast_add, byteAt_of_lt hlt]
    simp [hk']

theorem cutString_of_cuts (h : tok.Cuts buffer piece) (h0 : 0 ∉ piece) :
    cutString around buffer tok = some piece := by
  unfold cutString
  rw [cut_of_cuts h, Option.map_some, cstr_eq h0]

end Cutting

/-! ## The tokens of an answer -/

section Tokens

variable {r : Response} {m : Member} {k : Nat} {stack : Stack} {l : Login}

theorem first_wellFormed (r : Response) : r.first.wellFormed = true := by
  have h := r.wellFormed
  simp only [ServerList.answer, Document.wellFormed, Json.wellFormed, Items.wellFormed, Bool.and_eq_true] at h
  simp only [ServerList.first, Document.wellFormed, Json.wellFormed, Bool.and_eq_true]
  exact ⟨⟨rfl, h.1.2.1.1.2.1.1.2⟩, rfl⟩

theorem zero_notMem_first (r : Response) : 0 ∉ r.first.text := Document.zero_notMem_text (first_wellFormed r)

/-- The first server has one token for itself, and two for each field. -/
theorem tokens_first (r : Response) : r.first.tokens =
    Token.at 0 r.first.value.text.length :: (Items.ofMembers r.gap r.fields).tokens 1 := by
  simp [ServerList.first, Document.tokens, Json.tokens, Json.text]

theorem length_tokens_first (r : Response) : r.first.tokens.length = 2 * r.fields.length + 1 := by
  rw [tokens_first, List.length_cons, Items.length_tokens_ofMembers r.scalar]

/-- **The fourth token** of an answer is its first server. -/
theorem cuts_first (r : Response) : ∃ tok : Token, r.answer.tokens[3]? = some tok ∧
    tok.Cuts r.answer.text r.first.text := by
  refine ⟨_, rfl, r.lead ++ 123 :: (r.before ++ (r.servers.text ++ 91 :: r.inside)),
    r.behind ++ (r.others.comma ++ (r.others.text ++ 93 ::
      (r.after ++ (r.more.comma ++ (r.more.text ++ 125 :: r.trail))))),
    ?_, ?_⟩
  · simp [ServerList.answer, ServerList.first, Document.text, Json.text, Items.text, Items.comma, labelText]
  · have hlead : r.answer.lead = r.lead := rfl
    simp only [ServerList.first, Document.text, Json.text, labelText, hlead, List.length_append, List.length_cons,
      List.length_nil, Option.elim_some, Option.elim_none]
    congr 1
    · omega
    · omega

theorem length_tokens_le (r : Response) : r.first.tokens.length ≤ r.answer.tokens.length := by
  rw [length_tokens_first]
  simp only [ServerList.answer, ServerList.first, Document.tokens, Json.tokens, Items.tokens, labelTokens,
    List.length_append, List.length_cons, Items.length_tokens_ofMembers r.scalar]
  omega

/-- The tokens that `apiInfo` takes are those of the values. -/
theorem ken_eq (stack : Stack) (r : Response) (k : Nat) :
    cutString stack.around (r.first.text ++ [0]) (r.first.tokens.getD (2 * k + 2) (stack.kens (2 * k + 2))) =
      selected stack r k := by
  unfold selected
  rw [List.getD_eq_getElem?_getD, tokens_first, List.getElem?_cons_succ]
  cases hm : r.fields[k]? with
  | none =>
      have hnone : ((Items.ofMembers r.gap r.fields).tokens 1)[2 * k + 1]? = none := by
        rw [List.getElem?_eq_none_iff, Items.length_tokens_ofMembers r.scalar]
        have hlen := List.getElem?_eq_none_iff.mp hm
        omega
      rw [hnone, Option.getD_none]
  | some m =>
      obtain ⟨tok, htok, hcuts⟩ := Items.cuts_ofMembers r.scalar hm r.gap [123] [125]
      have htext : [123] ++ (Items.ofMembers r.gap r.fields).text ++ [125] = r.first.text := by
        simp [ServerList.first, Document.text, Json.text]
      rw [htext] at hcuts
      rw [show ((Items.ofMembers r.gap r.fields).tokens 1)[2 * k + 1]? = some tok from htok, Option.getD_some]
      exact cutString_of_cuts (cuts_append hcuts [0]) (zero_notMem_of_cuts hcuts (zero_notMem_first r))

theorem zero_notMem_selected {t : Bytes} (h : selected stack r k = some t) : 0 ∉ t := by
  rw [← ken_eq] at h
  unfold cutString at h
  obtain ⟨bytes, _, rfl⟩ := Option.map_eq_some_iff.mp h
  exact zero_notMem_cstr bytes

/-! ## The run -/

variable {jsmn : Jsmn} {httpbuffer : Bytes}

/-- An answer that is not accepted ends the process. -/
theorem apiInfo_refused (hbuffer : Holds httpbuffer r.answer.text) (hanswer : Documented jsmn r.answer)
    (h : ¬ Accepted r) (stack : Stack) (l : Login) : apiInfo jsmn stack httpbuffer l = none := by
  have hstring : cstr httpbuffer = r.answer.text :=
    cstr_of_holds (Document.zero_notMem_text r.wellFormed) hbuffer
  unfold apiInfo
  rw [hstring, hanswer r.wellFormed]
  by_cases hroom : r.answer.tokens.length ≤ 256
  · have hip : ¬ strstr r.answer.text (ascii "\"ip\": ") = true := fun hip => h ⟨hroom, hip⟩
    rw [if_pos hroom, guard, if_neg hip]
    rfl
  · rw [if_neg hroom]
    rfl

/-- What `apiInfo` makes of an answer that it accepts. -/
theorem apiInfo_accepted (hbuffer : Holds httpbuffer r.answer.text) (hanswer : Documented jsmn r.answer)
    (hfirst : Documented jsmn r.first) (h : Accepted r) (stack : Stack) (l : Login) :
    apiInfo jsmn stack httpbuffer l =
      (selected stack r 3).bind fun ip => (selected stack r 5).bind fun jpass =>
        (selected stack r 8).bind fun jport =>
        some { l with ipa := overwrite l.ipa ip, mppass := overwrite l.mppass jpass, port := atoi jport } := by
  obtain ⟨hroom, hip⟩ := h
  have hstring : cstr httpbuffer = r.answer.text :=
    cstr_of_holds (Document.zero_notMem_text r.wellFormed) hbuffer
  obtain ⟨tok, htok, hcuts⟩ := cuts_first r
  have hmore : cutString stack.around httpbuffer (r.answer.tokens.getD 3 (stack.tokens 3)) = some r.first.text := by
    obtain ⟨rest, hrest⟩ := hbuffer
    rw [List.getD_eq_getElem?_getD, htok, Option.getD_some, ← hrest, List.append_assoc]
    exact cutString_of_cuts (cuts_append hcuts _) (zero_notMem_first r)
  have hkens : jsmn r.first.text 256 = some r.first.tokens := by
    rw [hfirst (first_wellFormed r), if_pos ((length_tokens_le r).trans hroom)]
  -- the tokens 8, 12 and 18 are the values of the fields 3, 5 and 8
  have h8 : cutString stack.around (r.first.text ++ [0]) (r.first.tokens.getD 8 (stack.kens 8)) = _ :=
    ken_eq stack r 3
  have h12 : cutString stack.around (r.first.text ++ [0]) (r.first.tokens.getD 12 (stack.kens 12)) = _ :=
    ken_eq stack r 5
  have h18 : cutString stack.around (r.first.text ++ [0]) (r.first.tokens.getD 18 (stack.kens 18)) = _ :=
    ken_eq stack r 8
  unfold apiInfo
  rw [hstring, hanswer r.wellFormed, if_pos hroom]
  simp only [Option.bind_eq_bind, Option.bind_some, guard, hip, if_true, hmore, hkens, h8, h12, h18]
  rfl

theorem cstr_overwrite {old t : Bytes} (h : 0 ∉ t) : cstr (overwrite old t) = t ++ cstr (old.drop t.length) :=
  cstr_append h _

/-- **The fields are read by their names** just if the answer is accepted and they are in their places. -/
theorem readsByName_iff (hbuffer : Holds httpbuffer r.answer.text) (hanswer : Documented jsmn r.answer)
    (hfirst : Documented jsmn r.first) (stack : Stack) (l : Login) :
    ReadsByName r (apiInfo jsmn stack httpbuffer l) ↔ Accepted r ∧ InPlace stack r l := by
  by_cases hacc : Accepted r
  · rw [apiInfo_accepted hbuffer hanswer hfirst hacc, and_iff_right hacc]
    unfold ReadsByName InPlace LeavesValue
    constructor
    · rintro ⟨l', hl', hip, hmppass, hport⟩
      obtain ⟨ip, h3, hl'⟩ := Option.bind_eq_some_iff.mp hl'
      obtain ⟨jpass, h5, hl'⟩ := Option.bind_eq_some_iff.mp hl'
      obtain ⟨jport, h8, hl'⟩ := Option.bind_eq_some_iff.mp hl'
      obtain rfl := Option.some.inj hl'
      rw [cstr_overwrite (zero_notMem_selected h3)] at hip
      rw [cstr_overwrite (zero_notMem_selected h5)] at hmppass
      exact ⟨⟨ip, h3, hip⟩, ⟨jpass, h5, hmppass⟩, ⟨jport, h8, hport⟩⟩
    · rintro ⟨⟨ip, h3, hip⟩, ⟨jpass, h5, hmppass⟩, ⟨jport, h8, hport⟩⟩
      refine ⟨_, by rw [h3, h5, h8]; rfl, ?_, ?_, hport⟩
      · rw [← hip]
        exact cstr_overwrite (zero_notMem_selected h3)
      · rw [← hmppass]
        exact cstr_overwrite (zero_notMem_selected h5)
  · rw [apiInfo_refused hbuffer hanswer hacc]
    refine iff_of_false ?_ (fun h => hacc h.1)
    rintro ⟨l', hl', _⟩
    exact absurd hl' (Option.some_ne_none l').symm

/-! ## Today's order -/

theorem natOf_eq_digits {s : Bytes} (h : ∀ c ∈ s, isDigit c = true) (acc : Nat) :
    s.foldl (fun n d => 10 * n + (d.toNat - 48)) acc = digits acc s := by
  induction s generalizing acc with
  | nil => rfl
  | cons c s ih =>
      have hc : 48 ≤ c ∧ c ≤ 57 := by simpa [isDigit] using h c List.mem_cons_self
      rw [List.foldl_cons, digits, if_pos hc]
      exact ih (fun d hd => h d (List.mem_cons_of_mem c hd)) _

theorem isDigit_of_mem_decimal {n : Nat} {c : UInt8} (h : c ∈ decimal n) : isDigit c = true := digit_of_mem_decimal h

theorem digits_decimal_nil (n : Nat) : digits 0 (decimal n) = n := by
  rw [← List.append_nil (decimal n)]
  exact digits_decimal n List.takeWhile_nil

theorem natOf_decimal (n : Nat) : natOf (decimal n) = n :=
  (natOf_eq_digits (fun _ hc => isDigit_of_mem_decimal hc) 0).trans (digits_decimal_nil n)

theorem head?_decimal (n : Nat) : (decimal n).head? ≠ some 45 := by
  intro h
  exact absurd (isDigit_of_mem_decimal (List.mem_of_mem_head? h)) (by decide)

/-- A whole number is its digits. -/
theorem numeric_decimal (n : Nat) : numeric (decimal n) = n := by
  have htake : (decimal n).takeWhile isDigit = decimal n :=
    List.takeWhile_eq_self_iff.mpr fun c hc => isDigit_of_mem_decimal hc
  have hdrop : (decimal n).dropWhile isDigit = [] :=
    List.dropWhile_eq_nil_iff.mpr fun c hc => isDigit_of_mem_decimal hc
  have hexponent : ((decimal n).dropWhile fun c => c != 69 && c != 101) = [] := by
    refine List.dropWhile_eq_nil_iff.mpr fun c hc => ?_
    have hdigit := isDigit_of_mem_decimal hc
    rw [Bool.and_eq_true, bne_iff_ne, bne_iff_ne]
    constructor
    · rintro rfl
      exact absurd hdigit (by decide)
    · rintro rfl
      exact absurd hdigit (by decide)
  unfold numeric
  simp only [if_neg (head?_decimal n), htake, hdrop, hexponent, List.append_nil, natOf_decimal]
  simp

/-- No white space comes before the digits. -/
theorem dropWhile_isspace_decimal (n : Nat) : (decimal n).dropWhile isspace = decimal n := by
  cases hs : decimal n with
  | nil => rfl
  | cons c rest =>
      have hc : 48 ≤ c ∧ c ≤ 57 := by
        simpa [isDigit] using isDigit_of_mem_decimal (n := n) (by rw [hs]; exact List.mem_cons_self)
      -- the digits lie behind the space and the controls
      have hlow : 48 ≤ c.toNat := hc.1
      have hspace : isspace c = false := by
        unfold isspace
        rw [Bool.or_eq_false_iff, Bool.and_eq_false_imp, beq_eq_false_iff_ne]
        refine ⟨fun h => ?_, fun _ => decide_eq_false fun h => ?_⟩
        · rw [h] at hlow
          exact absurd hlow (by decide)
        · have hle : c.toNat ≤ 13 := h
          omega
      rw [List.dropWhile_cons_of_neg (by simp [hspace])]

theorem atoi_decimal {n : Nat} (h : n < 2 ^ 31) : atoi (decimal n) = n := by
  have hhead := head?_decimal n
  unfold atoi
  rw [dropWhile_isspace_decimal]
  split
  · next heq => exact absurd (by rw [heq]; rfl) hhead
  · next heq =>
      have hplus : isDigit 43 = true := isDigit_of_mem_decimal (by rw [heq]; exact List.mem_cons_self)
      exact absurd hplus (by decide)
  · rw [digits_decimal_nil]
    exact int32_of_range (by omega) (by omega)

/-- **In today's order**, with nothing escaped, all that matters is what was in the buffers before: it must end where
    the new values end. -/
theorem inPlace_iff (stack : Stack) (l : Login) {n : Nat} (h3 : r.fields[3]? = some r.ip)
    (h5 : r.fields[5]? = some r.mppass) (h8 : r.fields[8]? = some r.port)
    (hip : r.ip.value.content = r.ip.value.meaning) (hmppass : r.mppass.value.content = r.mppass.value.meaning)
    (hport : r.port.value = .primitive (decimal n)) (hn : n < 2 ^ 31) :
    InPlace stack r l ↔ cstr (l.ipa.drop r.ip.value.meaning.length) = [] ∧
      cstr (l.mppass.drop r.mppass.value.meaning.length) = [] := by
  have hatoi : (atoi r.port.value.content : ℚ) = numeric r.port.value.meaning := by
    rw [hport]
    show ((atoi (decimal n) : Int) : ℚ) = numeric (decimal n)
    rw [atoi_decimal hn, numeric_decimal, Int.cast_natCast]
  unfold InPlace LeavesValue selected
  simp only [h3, h5, h8, hip, hmppass, Option.some.injEq, exists_eq_left', hatoi, and_true, List.append_right_eq_self]

end Tokens

/-- **Fields by meaning.** `apiInfo` sets the address, the `mppass` and the port to the values of the fields with these
    names just if the answer is accepted, the values are the ones in the fourth, sixth and ninth place as they are
    written, and nothing of the old values shows behind them. -/
theorem apiInfo_iff (jsmn : Jsmn) (stack : Stack) (r : Response) (httpbuffer : Bytes) (l : Login)
    (hbuffer : Holds httpbuffer r.answer.text) (hanswer : Documented jsmn r.answer)
    (hfirst : Documented jsmn r.first) :
    ReadsByName r (apiInfo jsmn stack httpbuffer l) ↔ Accepted r ∧ InPlace stack r l :=
  readsByName_iff hbuffer hanswer hfirst stack l

/-- A tokenizer for certain texts. -/
def jsmnOf (ds : List Document) : Jsmn := fun text room =>
  (ds.find? fun d => d.text = text).bind fun d => if d.tokens.length ≤ room then some d.tokens else none

theorem documented_jsmnOf {ds : List Document} {d : Document} (h : (ds.find? fun d' => d'.text = d.text) = some d) :
    Documented (jsmnOf ds) d := by
  intro _ room
  unfold jsmnOf
  rw [h, Option.bind_some]

def textMember (name value : String) : Member := ⟨[32], ⟨ascii name, [], [32]⟩, .string (ascii value), []⟩

def numberMember (name : String) (n : Nat) : Member := ⟨[32], ⟨ascii name, [], [32]⟩, .primitive (decimal n), []⟩

/-- A server with the address in front. -/
def addressFirst : Response where
  servers := ⟨ascii "servers", [], [32]⟩
  fields := [textMember "ip" "10.0.0.1", textMember "mppass" "0a1b", numberMember "port" 25565,
    textMember "name" "Freebuild", numberMember "players" 3, numberMember "maxplayers" 64, numberMember "uptime" 7,
    textMember "software" "x", textMember "hash" "0f"]
  ip := textMember "ip" "10.0.0.1"
  mppass := textMember "mppass" "0a1b"
  port := numberMember "port" 25565
  wellFormed := by decide
  servers_name := by decide
  scalar := by decide
  names := by decide
  ip_mem := ⟨by simp, by decide⟩
  mppass_mem := ⟨by simp, by decide⟩
  port_mem := ⟨by simp, by decide⟩
  short := by decide

/-- jsmn, on the two texts of this answer. -/
def addressFirstJsmn : Jsmn := jsmnOf [addressFirst.answer, addressFirst.first]

theorem documented_answer : Documented addressFirstJsmn addressFirst.answer :=
  documented_jsmnOf (List.find?_cons_of_pos (by simp))

theorem documented_first : Documented addressFirstJsmn addressFirst.first := by
  have hne : ¬ addressFirst.answer.text = addressFirst.first.text := by decide
  apply documented_jsmnOf
  rw [List.find?_cons_of_neg (by simpa using hne)]
  exact List.find?_cons_of_pos (by simp)

theorem apiInfo_iff_addressFirst :
    ReadsByName addressFirst (apiInfo addressFirstJsmn {} (addressFirst.answer.text ++ [0]) {}) ↔
      Accepted addressFirst ∧ InPlace {} addressFirst {} :=
  apiInfo_iff addressFirstJsmn {} addressFirst (addressFirst.answer.text ++ [0]) {} ⟨[], List.append_nil _⟩
    documented_answer documented_first

/-- The fourth field is taken for the address, whatever its name is. -/
theorem address_not_read : ¬ ∀ (jsmn : Jsmn) (stack : Stack) (r : Response) (httpbuffer : Bytes) (l : Login),
    Holds httpbuffer r.answer.text → Documented jsmn r.answer → Documented jsmn r.first →
    ReadsByName r (apiInfo jsmn stack httpbuffer l) := by
  intro hall
  have hbuffer : Holds (addressFirst.answer.text ++ [0]) addressFirst.answer.text := ⟨[], List.append_nil _⟩
  have hreads := hall addressFirstJsmn {} addressFirst (addressFirst.answer.text ++ [0]) {} hbuffer documented_answer
    documented_first
  obtain ⟨_, hip, _, _⟩ := (readsByName_iff hbuffer documented_answer documented_first {} {}).mp hreads
  obtain ⟨t, ht, hvalue⟩ := hip
  have hname : selected {} addressFirst 3 = some (ascii "Freebuild") := rfl
  obtain rfl := Option.some.inj (ht.symm.trans hname)
  exact absurd hvalue (by decide)

end LavaTunnel
