import LavaTunnel.Info
import LavaTunnel.Wire.Json

/-!
# `LavaTunnel.Http` — the answers of the web site (`main.c`)

libcurl hands an answer to `curl_write` in pieces, and `curl_write` appends each of them to `httpbuffer` with
`strcat`. A piece has no terminator of its own: what `strcat` reads behind it is whatever lies there. `apiInfo` has
jsmn look for the tokens of an answer, and takes the address, the `mppass` and the port of a server from certain
tokens. `mcLogin` takes the login token from one, and posts it with the user name and the password.

`httpbuffer` is the memory from its first byte on, what comes after its 9024 bytes included.
-/

namespace LavaTunnel

open Wire

/-- A call of `curl_write`: `size * nmemb` bytes, and the memory behind them, as far as it can be read. -/
structure Piece where
  size : Nat
  nmemb : Nat
  data : Bytes
  behind : Bytes
  length_data : data.length = size * nmemb

/-- The memory from `ptr` on. -/
def Piece.memory (p : Piece) : Bytes := p.data ++ p.behind

/-- What `strcat` copies: a string and its terminator. Without a terminator it copies as long as it can read. -/
def catBytes (source : Bytes) : Bytes := if 0 ∈ source then cstr source ++ [0] else source

/-- `strcat`. -/
def strcat (destination source : Bytes) : Bytes :=
  cstr destination ++ overwrite (destination.drop (strlen destination)) (catBytes source)

/-- Append a piece to `httpbuffer`. No result: the process has read memory that it does not have. -/
def curlWrite (httpbuffer : Bytes) (p : Piece) : Option Nat × Bytes :=
  (if 0 ∈ p.memory then some (p.size * p.nmemb) else none, strcat httpbuffer p.memory)

/-- The calls of one transfer: whether it comes to its end, and the memory it leaves. libcurl goes on as long as
    `curl_write` returns that it took everything. -/
def transfer (httpbuffer : Bytes) : List Piece → Bool × Bytes
  | [] => (true, httpbuffer)
  | p :: ps =>
      let written := curlWrite httpbuffer p
      if written.1 = some p.data.length then transfer written.2 ps else (false, written.2)

/-- The indices that a transfer writes. -/
def transferWrites (httpbuffer : Bytes) : List Piece → List Nat
  | [] => []
  | p :: ps =>
      let written := curlWrite httpbuffer p
      List.range' (strlen httpbuffer) (catBytes p.memory).length ++
        if written.1 = some p.data.length then transferWrites written.2 ps else []

/-! ## `apiInfo` -/

/-- `jsmn_parse`: the tokens of a text, if there are no more of them than there is room for. Of a token only the
    range is read. -/
abbrev Jsmn := Bytes → Nat → Option (List Token)

/-- What is on the stack of `apiInfo` before: the two arrays of tokens, and the bytes around a buffer. -/
structure Stack where
  tokens : Nat → Token := fun _ => ⟨0, 0⟩
  kens : Nat → Token := fun _ => ⟨0, 0⟩
  around : Int → UInt8 := fun _ => 0

/-- The byte at an index of a buffer, or around it. -/
def byteAt (around : Int → UInt8) (buffer : Bytes) (i : Int) : UInt8 :=
  if 0 ≤ i ∧ i < buffer.length then buffer.getD i.toNat 0 else around i

/-- The bytes of a buffer that a token says. A range that ends before it begins is no array. -/
def cut (around : Int → UInt8) (buffer : Bytes) (tok : Token) : Option Bytes :=
  if tok.stop < tok.start then none
  else some ((List.range (tok.stop - tok.start).toNat).map fun (k : Nat) => byteAt around buffer (tok.start + k))

/-- A token's bytes, as the string that is made of them. -/
def cutString (around : Int → UInt8) (buffer : Bytes) (tok : Token) : Option Bytes :=
  (cut around buffer tok).map cstr

/-- `apiInfo`, once the answer is in `httpbuffer`: the first server's text is looked through again, and its values are
    copied without a terminator. No result: the process has ended. -/
def apiInfo (jsmn : Jsmn) (stack : Stack) (httpbuffer : Bytes) (l : Login) : Option Login := do
  let tokens ← jsmn (cstr httpbuffer) 256
  guard (strstr (cstr httpbuffer) (ascii "\"ip\": ") = true)
  let more ← cutString stack.around httpbuffer (tokens.getD 3 (stack.tokens 3))
  let kens ← jsmn more 256
  let ken (i : Nat) : Option Bytes := cutString stack.around (more ++ [0]) (kens.getD i (stack.kens i))
  let ip ← ken 8
  let jpass ← ken 12
  let jport ← ken 18
  return { l with ipa := overwrite l.ipa ip, mppass := overwrite l.mppass jpass, port := atoi jport }

/-! ## `mcLogin` -/

/-- The login token, once the first answer is in `httpbuffer`. No result: the process has ended. -/
def loginToken (jsmn : Jsmn) (stack : Stack) (httpbuffer : Bytes) : Option Bytes := do
  let tokens ← jsmn (cstr httpbuffer) 256
  cutString stack.around httpbuffer (tokens.getD 6 (stack.tokens 6))

/-- The format of the login request. -/
def postLoginText (username password token : Bytes) : Bytes :=
  ascii "username=" ++ cstr username ++ ascii "&password=" ++ cstr password ++ ascii "&token=" ++ cstr token

/-- The string that is posted, from the 256 bytes of `post_login_str`. -/
def postLoginStr (behind : Bytes → Bytes) (username password token : Bytes) : Bytes :=
  sprintf behind 256 (postLoginText username password token)

/-- The body of the login request of `mcLogin`. -/
def postLogin (jsmn : Jsmn) (stack : Stack) (behind : Bytes → Bytes) (httpbuffer : Bytes) (l : Login) :
    Option Bytes := do
  let token ← loginToken jsmn stack httpbuffer
  return postLoginStr behind l.username l.password token

end LavaTunnel
