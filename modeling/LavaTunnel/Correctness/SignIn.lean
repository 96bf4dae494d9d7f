import LavaTunnel.Correctness.Api
import LavaTunnel.StartUp

/-!
# `LavaTunnel.Correctness.SignIn` — the three requests of a login

`main` asks the web site for a login token, posts it with the user name and the password, and asks for the page of the
server. Where the site answers each request with a text that arrives, the login is what `apiInfo` makes of the last.
-/

namespace LavaTunnel

open Wire

/-! ## Answers that arrive -/

/-- The answer is this text, it fits in `httpbuffer`, and a NUL is behind every piece of it. -/
structure Brings (answer : Option (List Piece)) (text : Bytes) : Prop where
  noNul : 0 ∉ text
  fits : text.length < 9024
  pieces : ∃ ps, answer = some ps ∧ body ps = text ∧ ∀ p ∈ ps, p.behind.head? = some 0

theorem curlEasyPerform_brings {answer : Option (List Piece)} {text m : Bytes} (h : Brings answer text)
    (hm : m.head? = some 0) : ∃ m', curlEasyPerform m answer = some m' ∧ Holds m' text := by
  obtain ⟨ps, rfl, rfl, hbehind⟩ := h.pieces
  obtain ⟨rest, hrest⟩ := List.head?_eq_some_iff.mp hm
  have hempty : Holds m [] := ⟨rest, hrest.symm⟩
  obtain ⟨hends, hholds⟩ := (arrives_iff hempty h.noNul).mpr hbehind
  refine ⟨(transfer m ps).2, ?_, hholds⟩
  unfold curlEasyPerform
  simp only [Option.bind_eq_bind, Option.bind_some, guard, if_pos hends]
  rfl

/-- Both times the buffer is clear. -/
theorem head?_clearBuffer (m : Bytes) : (clearBuffer m).head? = some 0 := rfl

/-! ## A site -/

/-- The site answers a request for a token with a document, the post with any text, and the request for the page of
    the server with a response. Both are as jsmn is documented to read them. -/
structure Site (host : Host) (l : Login) (d : Document) (token : Bytes) (r : Response) : Prop where
  asked : Brings host.token d.text
  wellFormed : d.wellFormed = true
  document : Documented host.jsmn d
  room : d.tokens.length ≤ 256
  seventh : ∃ tok : Token, d.tokens[6]? = some tok ∧ tok.Cuts d.text token
  posted : ∀ post, ∃ text, Brings (host.session post) text
  page : Brings (host.server (postLoginStr host.postLoginStr l.username l.password token) (serverUrl host.url l.hash))
    r.answer.text
  answer : Documented host.jsmn r.answer
  first : Documented host.jsmn r.first

section Site

variable {host : Host} {l : Login} {d : Document} {token : Bytes} {r : Response}

/-- **What is posted**: the user name, the password, and the token of the first answer. -/
theorem postLogin_site (h : Site host l d token r) {httpbuffer : Bytes} (hbuffer : Holds httpbuffer d.text) :
    postLogin host.jsmn host.loginStack host.postLoginStr httpbuffer l =
      some (postLoginStr host.postLoginStr l.username l.password token) := by
  have h0 : 0 ∉ d.text := Document.zero_notMem_text h.wellFormed
  obtain ⟨tok, htok, hcuts⟩ := h.seventh
  have hstring : cstr httpbuffer = d.text := cstr_of_holds h0 hbuffer
  have hcut : cutString host.loginStack.around httpbuffer (d.tokens.getD 6 (host.loginStack.tokens 6)) =
      some token := by
    obtain ⟨rest, hrest⟩ := hbuffer
    rw [List.getD_eq_getElem?_getD, htok, Option.getD_some, ← hrest, List.append_assoc]
    exact cutString_of_cuts (cuts_append hcuts _) (zero_notMem_of_cuts hcuts h0)
  unfold postLogin loginToken
  rw [hstring, h.document h.wellFormed, if_pos h.room]
  simp only [Option.bind_eq_bind, Option.bind_some, hcut]
  rfl

/-- **The three requests.** -/
theorem logIn_site (h : Site host l d token r) : ∃ httpbuffer, Holds httpbuffer r.answer.text ∧
    host.logIn l = apiInfo host.jsmn host.apiStack httpbuffer l := by
  have hclear : (List.replicate 9024 (0 : UInt8)).head? = some 0 := rfl
  obtain ⟨m, hm, hholds⟩ := curlEasyPerform_brings h.asked hclear
  obtain ⟨text, hposted⟩ := h.posted (postLoginStr host.postLoginStr l.username l.password token)
  obtain ⟨m', hm', -⟩ := curlEasyPerform_brings hposted (head?_clearBuffer m)
  obtain ⟨httpbuffer, hbuffer, hanswer⟩ := curlEasyPerform_brings h.page (head?_clearBuffer m')
  refine ⟨httpbuffer, hanswer, ?_⟩
  unfold Host.logIn Host.mcLogin
  simp only [Option.bind_eq_bind, hm, Option.bind_some, postLogin_site h hholds, hm', hbuffer, Option.pure_def]

/-- The response is accepted, the three fields are in the places they have today, and nothing in the two texts is
    escaped. -/
structure Today (r : Response) (n : Nat) : Prop where
  accepted : Accepted r
  ip : r.fields[3]? = some r.ip
  mppass : r.fields[5]? = some r.mppass
  port : r.fields[8]? = some r.port
  ip_plain : r.ip.value.content = r.ip.value.meaning
  mppass_plain : r.mppass.value.content = r.mppass.value.meaning
  port_number : r.port.value = .primitive (decimal n)

/-- **The login that is found**, where the buffers are empty before. -/
theorem logIn_today (h : Site host l d token r) {n : Nat} (hr : Today r n) (hn : n < 2 ^ 31) (hipa : l.ipa = [])
    (hmppass : l.mppass = []) : host.logIn l =
      some { l with ipa := r.ip.value.meaning, mppass := r.mppass.value.meaning, port := n } := by
  obtain ⟨httpbuffer, hbuffer, hlogIn⟩ := logIn_site h
  have hport : atoi r.port.value.content = n := by
    rw [hr.port_number]
    exact atoi_decimal hn
  have hempty : ∀ t : Bytes, overwrite [] t = t := fun t => by simp [overwrite]
  rw [hlogIn, apiInfo_accepted hbuffer h.answer h.first hr.accepted]
  unfold selected
  rw [hr.ip, hr.mppass, hr.port]
  simp only [Option.bind_some]
  rw [hipa, hmppass, hempty, hempty, hr.ip_plain, hr.mppass_plain, hport]

end Site

/-! ## A site of today -/

/-- An answer in one piece. -/
def wholePiece (text : Bytes) : Piece := ⟨1, text.length, text, [0], (Nat.one_mul _).symm⟩

theorem brings_whole {text : Bytes} (h0 : 0 ∉ text) (hfits : text.length < 9024) :
    Brings (some [wholePiece text]) text := by
  refine ⟨h0, hfits, [wholePiece text], rfl, List.append_nil text, fun p hp => ?_⟩
  rw [List.mem_singleton.mp hp]
  rfl

/-- The answer with the token. -/
def tokenAnswer : Document :=
  ⟨[], .object (Items.ofMembers [] [textMember "username" "", numberMember "errorcount" 0,
    textMember "token" "t0k3n"]), []⟩

/-- A server as it is listed today. -/
def listedServer : Response where
  servers := ⟨ascii "servers", [], []⟩
  fields := [textMember "hash" "0f", numberMember "maxplayers" 64, textMember "name" "Freebuild",
    textMember "ip" "10.0.0.1", numberMember "players" 3, textMember "mppass" "9f3c", textMember "software" "x",
    numberMember "uptime" 7, numberMember "port" 25565]
  ip := textMember "ip" "10.0.0.1"
  mppass := textMember "mppass" "9f3c"
  port := numberMember "port" 25565
  wellFormed := by decide
  servers_name := by decide
  scalar := by decide
  names := by decide
  ip_mem := ⟨List.mem_of_getElem? (show _[3]? = _ from rfl), by decide⟩
  mppass_mem := ⟨List.mem_of_getElem? (show _[5]? = _ from rfl), by decide⟩
  port_mem := ⟨List.mem_of_getElem? (show _[8]? = _ from rfl), by decide⟩
  short := by decide

theorem today_listedServer : Today listedServer 25565 :=
  ⟨⟨by decide, by decide⟩, rfl, rfl, rfl, by decide, by decide, rfl⟩

/-- A host on which the site answers so. -/
def todaysHost : Host where
  jsmn := jsmnOf [tokenAnswer, listedServer.answer, listedServer.first]
  token := some [wholePiece tokenAnswer.text]
  session _ := some [wholePiece (ascii "ok")]
  server _ _ := some [wholePiece listedServer.answer.text]

theorem site_todaysHost (l : Login) : Site todaysHost l tokenAnswer (ascii "t0k3n") listedServer where
  asked := brings_whole (by decide) (by decide)
  wellFormed := by decide
  document := documented_jsmnOf (List.find?_cons_of_pos (by simp))
  room := by decide
  seventh := ⟨Token.at 45 5, by decide, tokenAnswer.text.take 45, tokenAnswer.text.drop 50, by decide, by decide⟩
  posted _ := ⟨ascii "ok", brings_whole (by decide) (by decide)⟩
  page := brings_whole (Document.zero_notMem_text listedServer.wellFormed) (by decide +kernel)
  answer := by
    have hne : ¬ tokenAnswer.text = listedServer.answer.text := by decide
    apply documented_jsmnOf
    rw [List.find?_cons_of_neg (by simpa using hne)]
    exact List.find?_cons_of_pos (by simp)
  first := by
    have hne : ¬ tokenAnswer.text = listedServer.first.text := by decide
    have hne' : ¬ listedServer.answer.text = listedServer.first.text := by decide
    apply documented_jsmnOf
    rw [List.find?_cons_of_neg (by simpa using hne), List.find?_cons_of_neg (by simpa using hne')]
    exact List.find?_cons_of_pos (by simp)

end LavaTunnel
