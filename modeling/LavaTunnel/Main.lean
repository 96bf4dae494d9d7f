import LavaTunnel.Build
import LavaTunnel.Server
import LavaTunnel.Wire.Interleave

/-!
# `LavaTunnel.Main` — the four threads (`main.c`)

`main` starts `tunnelServer` and then reads commands from the console; the login of the client starts
`mcConnect` and `builder`. All four share the globals and the two sockets. `tunnel` puts them together, a
call at a time.
-/

namespace LavaTunnel

open Wire Wire.Prog

/-- The threads. -/
inductive ThreadId where
  | main
  | tunnelServer
  | mcConnect
  | builder
deriving DecidableEq

/-- The locals a thread keeps from one round of its loop to the next. `connecting` is `mcConnect` before
    its loop. -/
inductive Locals where
  | main
  | tunnelServer (l : ServerLocals)
  | connecting
  | mcConnect (l : McLocals)
  | builder (pc : Pc)

/-- A line of the console. Only a line with an apostrophe in front is a command. -/
def consoleLine (env : Env) (line : Bytes) : Code Unit := do
  onlyIf (byte line = 39) (do
    let _known ← commandFunc env (cstr (line.drop 1))
    pure ())

/-- The console loop: a line of input is received like a segment. -/
def console (env : Env) : Code Unit := do
  let line ← recvCall 64
  consoleLine env (line.getD [])

/-- One round of a thread's loop. -/
def round (env : Env) : ThreadId → Locals → Code Locals
  | .main, .main => do
      console env
      pure .main
  | .tunnelServer, .tunnelServer l => do
      let l' ← tunnelServer env l
      pure (.tunnelServer l')
  | .mcConnect, .connecting => do
      mcLogin
      pure (.mcConnect {})
  | .mcConnect, .mcConnect l => do
      let l' ← mcConnect env l
      pure (.mcConnect l')
  | .builder, .builder pc => do
      let pc' ← builder env pc
      pure (.builder pc')
  | _, l => pure l

/-- The tunnel: which loop each thread runs, and when it is started. -/
def tunnel (env : Env) : System ThreadId Tunnel Socket Locals where
  body := round env
  started
    | .main, _ => true
    | .tunnelServer, _ => true
    | .mcConnect, t => t.loggedIn
    | .builder, t => t.loggedIn

/-- Every thread before its first call, and nothing sent. -/
def start (t : Tunnel) : Config ThreadId Tunnel Socket Locals where
  state := t
  thread
    | .main => ⟨.ret .main, none⟩
    | .tunnelServer => ⟨.ret (.tunnelServer {}), none⟩
    | .mcConnect => ⟨.ret .connecting, none⟩
    | .builder => ⟨.ret (.builder .paste), none⟩
  stream _ := []

end LavaTunnel
