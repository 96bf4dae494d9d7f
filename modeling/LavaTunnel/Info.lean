import LavaTunnel.Command

/-!
# `LavaTunnel.Info` — the saved connection info (`main.c`)

Before it starts the threads, `main` reads the user name, the password and the server's hash from
`config/info.txt`, or the address and the `mppass` from `config/direct.txt`, asks for what is missing, and
writes the two files. The writer puts a newline between the fields, and the reader splits at any white space.

A file is its bytes. The text is composed by `sprintf` in a buffer on the stack, and what does not fit is
written behind it. What is there when the buffer is read is for the rest of the stack to say: `behind`.
-/

namespace LavaTunnel

open Wire

/-- What `main` knows about the connection. `loginMethod`: 0 = `info.txt`, 1 = ask, 2 = `direct.txt`. -/
structure Login where
  ipa : Bytes := []
  port : Int := 0
  mppass : Bytes := []
  password : Bytes := []
  username : Bytes := []
  hash : Bytes := []
  loginMethod : Int := 0
  dircon : Bool := false

/-! ## `fscanf` and `sprintf` -/

/-- `fscanf(_, "%s\n", _)`: the next word, if there is one, and where the file goes on. -/
def scanWord (file : Bytes) : Option Bytes × Bytes :=
  let file := file.dropWhile isspace
  if file = [] then (none, [])
  else (some (file.takeWhile fun c => !isspace c), (file.dropWhile fun c => !isspace c).dropWhile isspace)

/-- The sign in front of a number, and what comes after it. -/
def sign : Bytes → Int × Bytes
  | 45 :: rest => (-1, rest)
  | 43 :: rest => (1, rest)
  | rest => (1, rest)

/-- A digit. -/
def isdigit (c : UInt8) : Bool := decide (48 ≤ c) && decide (c ≤ 57)

/-- `fscanf(_, "%d\n", _)`: the next number, if there is one, and where the file goes on. -/
def scanNumber (file : Bytes) : Option Int × Bytes :=
  let signed := sign (file.dropWhile isspace)
  if signed.2.takeWhile isdigit = [] then (none, signed.2)
  else (some (int32 (signed.1 * digits 0 signed.2)), (signed.2.dropWhile isdigit).dropWhile isspace)

/-- The C string that is found in a buffer of `size` bytes after `sprintf` wrote `text` to it. `behind` turns
    what was written behind the buffer into what is there when it is read. -/
def sprintf (behind : Bytes → Bytes) (size : Nat) (text : Bytes) : Bytes :=
  let memory := text ++ [0]
  cstr (memory.take size ++ if memory.length ≤ size then [] else behind (memory.drop size))

/-! ## `info.txt` -/

/-- Read `config/info.txt`: what is missing is asked for. The three buffers hold words of at most 63 letters. -/
def readInfo (file : Option Bytes) (l : Login) : Login :=
  match file with
  | none => { l with loginMethod := 1 }
  | some file =>
      let username := scanWord file
      let l := { l with username := username.1.getD l.username }
      if strlen l.username < 1 then { l with loginMethod := 1 }
      else
        let password := scanWord username.2
        let l := { l with password := password.1.getD l.password }
        if strlen l.password < 1 then { l with loginMethod := 1 }
        else
          let hash := scanWord password.2
          let l := { l with hash := hash.1.getD l.hash }
          if strlen l.hash < 1 then { l with loginMethod := 1 } else l

/-- The prompt: an answer of at most one character keeps what was there, and one of more than 63 does not fit its
    buffer. -/
def prompt (iusername ipassword ihash : Bytes) (l : Login) : Login :=
  { l with
    username := if strlen iusername > 1 then cstr iusername else l.username
    password := if strlen ipassword > 1 then cstr ipassword else l.password
    hash := if strlen ihash > 1 then cstr ihash else l.hash }

/-- The three fields as `config/info.txt` has them. -/
def infoText (l : Login) : Bytes := cstr l.username ++ 10 :: cstr l.password ++ 10 :: cstr l.hash

/-- Save to `config/info.txt`. There is no room for the terminator in `tinfo`. -/
def saveInfo (behind : Bytes → Bytes) (l : Login) : Bytes :=
  sprintf behind (strlen l.username + strlen l.password + strlen l.hash + 2) (infoText l)

/-! ## `direct.txt` -/

/-- Read `config/direct.txt`, where the words have at most 63 letters too. -/
def readDirect (file : Bytes) (l : Login) : Login :=
  let ipa := scanWord file
  let l := { l with ipa := ipa.1.getD l.ipa, dircon := true }
  if strlen l.ipa < 1 then { l with loginMethod := 1, dircon := false }
  else
    let port := scanNumber ipa.2
    let l := { l with port := port.1.getD l.port }
    if l.port = 0 then { l with loginMethod := 1, dircon := false }
    else
      let username := scanWord port.2
      let l := { l with username := username.1.getD l.username }
      if strlen l.username < 1 then { l with loginMethod := 1, dircon := false }
      else
        let mppass := scanWord username.2
        let l := { l with mppass := mppass.1.getD l.mppass }
        if strlen l.mppass < 1 then { l with loginMethod := 1, dircon := false } else l

/-- The four fields as `config/direct.txt` has them. -/
def directText (l : Login) : Bytes :=
  cstr l.ipa ++ 10 :: decimal l.port ++ 10 :: cstr l.username ++ 10 :: cstr l.mppass

/-- Write `config/direct.txt` after a login, from the 70 bytes of `direct`. -/
def writeDirect (behind : Bytes → Bytes) (l : Login) : Bytes := sprintf behind 70 (directText l)

end LavaTunnel
