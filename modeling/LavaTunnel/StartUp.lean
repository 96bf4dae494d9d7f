import LavaTunnel.Http
import LavaTunnel.Lists

/-!
# `LavaTunnel.StartUp` — `main` before it starts the threads (`main.c`)

`main` reads the settings, the two lists and the connection info. Where the info is missing, or where the settings say
so, it asks the user, and may save the answers. Then it connects as `config/direct.txt` says, or it logs in to the web
site, asks for the server's address, and writes `config/direct.txt`.

The state is the one the threads will share, with the files. The login is the result, and so is the text of
`config/direct.txt`: `main` does not close that file, and the text stays in its buffer until the program exits.
`exit` is every end of the program, a crash included.
-/

namespace LavaTunnel

open Wire Wire.Prog

/-! ## What the program meets -/

/-- What libconfig finds in `config/config.cfg`. -/
structure Settings where
  loginMethod : Option Int := none
  hax : Option Int := none
  haxType : Option Bytes := none
  gimp : Option Bytes := none
  useCPE : Option Int := none

/-- What the user types: three lines, and a key. -/
structure Answers where
  iusername : Bytes := []
  ipassword : Bytes := []
  ihash : Bytes := []
  choice : UInt8 := 0

/-- jsmn, the stack, and the web site. What becomes of the bytes that `sprintf` writes behind a buffer is for each of
    the four buffers. The site answers the three requests in pieces, or not at all, and it may look at what has been
    posted and at the address that is asked for. -/
structure Host where
  jsmn : Jsmn
  loginStack : Stack := {}
  apiStack : Stack := {}
  tinfo : Bytes → Bytes := id
  postLoginStr : Bytes → Bytes := id
  url : Bytes → Bytes := id
  direct : Bytes → Bytes := id
  token : Option (List Piece)
  session : Bytes → Option (List Piece)
  server : Bytes → Bytes → Option (List Piece)

/-- `config/ignore.txt`. -/
def ignoreTxt : Bytes := ascii "config/ignore.txt"

/-- `config/info.txt`. -/
def infoTxt : Bytes := ascii "config/info.txt"

/-- `config/direct.txt`. -/
def directTxt : Bytes := ascii "config/direct.txt"

/-- Write a whole file. -/
def Tunnel.write (t : Tunnel) (name text : Bytes) : Tunnel :=
  { t with files := Function.update t.files name (some text) }

theorem files_write_self (t : Tunnel) (name text : Bytes) : (t.write name text).files name = some text :=
  Function.update_self _ _ _

theorem files_write_ne {name name' : Bytes} (h : name' ≠ name) (t : Tunnel) (text : Bytes) :
    (t.write name text).files name' = t.files name' := Function.update_of_ne h _ _

/-! ## The web site -/

/-- `memset(&httpbuffer, 0, sizeof(httpbuffer))`. -/
def clearBuffer (httpbuffer : Bytes) : Bytes := overwrite httpbuffer (List.replicate 9024 0)

/-- `curl_easy_perform`: the answer in `httpbuffer`. -/
def curlEasyPerform (httpbuffer : Bytes) (answer : Option (List Piece)) : Option Bytes := do
  let pieces ← answer
  let transferred := transfer httpbuffer pieces
  guard (transferred.1 = true)
  return transferred.2

/-- `mcLogin` of `main.c`: what it has posted, and `httpbuffer`. -/
def Host.mcLogin (host : Host) (l : Login) : Option (Bytes × Bytes) := do
  let httpbuffer ← curlEasyPerform (List.replicate 9024 0) host.token
  let post ← postLogin host.jsmn host.loginStack host.postLoginStr httpbuffer l
  let httpbuffer ← curlEasyPerform (clearBuffer httpbuffer) (host.session post)
  return (post, httpbuffer)

/-- The address of a server's page, from the 128 bytes of `url`. -/
def serverUrl (behind : Bytes → Bytes) (hash : Bytes) : Bytes :=
  sprintf behind 128 (ascii "http://www.classicube.net/api/server/" ++ cstr hash ++ ascii "/")

/-- Log in, and ask for the address of the server. -/
def Host.logIn (host : Host) (l : Login) : Option Login := do
  let (post, httpbuffer) ← host.mcLogin l
  let httpbuffer ← curlEasyPerform (clearBuffer httpbuffer) (host.server post (serverUrl host.url l.hash))
  apiInfo host.jsmn host.apiStack httpbuffer l

/-! ## `main` -/

/-- Load the settings and the two lists. A setting that is missing leaves its global zero; without a `gimp` there is
    nothing to copy to `gimpFolder`, which is taken to be as long as the path. -/
def loadConfig (settings : Settings) : Code Unit := do
  match settings.gimp with
  | none => exit
  | some gimpF =>
      update fun t => { t with
        hax := settings.hax.getD 0
        haxType := settings.haxType.getD []
        useCPE := settings.useCPE.getD 0 }
      update fun t => loadGimps (t.files (cstr gimpF)) t
      update fun t => loadIgnores (t.files ignoreTxt) t
      update fun t => if t.files ignoreTxt = none then t.write ignoreTxt [] else t

/-- Read the connection info. There is no check that `config/direct.txt` exists. -/
def readLogin (loginMethod : Int) : Code Login := do
  let t ← getState
  let l := readInfo (t.files infoTxt) { loginMethod := loginMethod }
  if l.loginMethod = 2 then
    match t.files directTxt with
    | none => exit
    | some file => pure (readDirect file l)
  else pure l

/-- Whether an answer has changed something. -/
def Answers.changed (answers : Answers) : Bool :=
  decide (strlen answers.iusername > 1) || decide (strlen answers.ipassword > 1) || decide (strlen answers.ihash > 1)

/-- Where the user is to be asked: the answers, saved if the user wants to. -/
def askLogin (tinfo : Bytes → Bytes) (answers : Answers) (l : Login) : Code Login :=
  if l.loginMethod = 1 then do
    let l := prompt answers.iusername answers.ipassword answers.ihash l
    onlyIf (answers.changed = true ∧ tolower answers.choice = 121) do
      update fun t => t.write infoTxt (saveInfo tinfo l)
    pure l
  else pure l

/-- Connect as `config/direct.txt` says, or as the web site does. -/
def connect (host : Host) (l : Login) : Code (Login × Option Bytes) := do
  if l.dircon then do
    update fun t => { t with username := l.username, mppass := l.mppass }
    pure (l, none)
  else
    match host.logIn l with
    | none => exit
    | some l => do
        update fun t => { t with username := l.username, mppass := l.mppass }.write directTxt []
        pure (l, some (writeDirect host.direct l))

/-- `main` up to the threads. -/
def startUp (host : Host) (settings : Settings) (answers : Answers) : Code (Login × Option Bytes) := do
  loadConfig settings
  let l ← readLogin (settings.loginMethod.getD 0)
  let l ← askLogin host.tinfo answers l
  connect host l

end LavaTunnel
