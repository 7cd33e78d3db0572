import Lobbyboy.SocketHandle.Cleanup
import Lobbyboy.SocketHandle.Creation

/-! A session from the connection to its end: `SocketHandlerThread.run` and what it calls.
The transport is registered as soon as the proxy process runs, and taken out of the table
by the cleanup that is given the server. -/

namespace Lobbyboy.SocketHandle

open Foundation Utils Config Provider Prog

variable (env : Env Transport) (providers : Providers)

/-! ### Choosing a server -/

/-- One line for each server, with the number of its sessions at that moment. -/
def describeServers : List LBServerMeta → Prog Transport (List String)
  | [] => pure []
  | m :: ms => do
    let activeSession ← readSessions env
    let sessionsCnt := (activeSession.sessions m.serverName).length
    let rest ← describeServers ms
    return s!"Enter {m.providerName} {m.serverName} {m.serverHost} ({sessionsCnt} active sessions)"
      :: rest

def chooseServer : Prog Transport LBServerMeta := do
  let availableServers ← loadServers env
  if availableServers.entries = [] then do
    sendToChannel env (utf8 "There is no available servers, provision a new server...")
    askUserToCreateServer env providers
  else do
    let described ← describeServers env availableServers.values
    let userInput ← chooseOption env ("Create a new server..." :: described)
      (some s!"There are {availableServers.values.length} available servers:")
    match userInput with
    | 0 => askUserToCreateServer env providers
    | i + 1 =>
      match availableServers.values[i]? with
      | some m => return m
      | none => raise ⟨.exception, "list index out of range"⟩

/-! ### The proxy process -/

/-- The caller's transport is `t`. -/
def createProxyProcess (t : Transport) : Prog Transport LBServerMeta := do
  let m ← chooseServer env providers
  match providers.get? m.providerName with
  | none => raise ⟨.noProviderException, s!"not find provider for server {m.serverName}"⟩
  | some _ => do
    sendToChannel env (utf8
      s!"Redirect you to {m.providerName} server: {m.serverName} ({m.serverHost})...")
    -- Popen
    call env
    let activeSession ← readSessions env
    modify fun w => { w with activeSession := activeSession.register m.serverName t }
    return m

/-- Whether the client negotiates and opens a channel. -/
def prepareServer : Prog Transport Bool := do
  -- load_server_moduli(), the host key, and the server object
  call env
  call env
  let started ← handle (do call env; return true) fun e =>
    if e.kind = .sshException then return false else raise e
  if started then do
    call env
    let opened := env.ready (← tick)
    modify fun w => { w with channel := opened }
    return opened
  else return false

/-- One iteration of the loop of `user_using`: what `select` finds, and how it goes. -/
inductive Turn
  | idle
  | fromProxy (read : Except PyExc (List UInt8)) (sent : Option PyExc)
  | fromClient (received : Except PyExc (List UInt8)) (written : Option PyExc)
  | noSelect (e : PyExc)

/-- What happens between the registration and the cleanup: the line below the redirection,
`channel.fileno()`, the iterations until the proxy process has exited, and the closing
message; `none` is a step that does not raise. -/
structure Terminal where
  windowWidth : ℕ := 80
  line : Option PyExc := none
  fileno : Option PyExc := none
  turns : List Turn := []
  closing : Option PyExc := none

/-- A step that raises what it is told to. -/
def attempt : Option PyExc → Prog Transport Unit
  | none => pure ()
  | some e => raise e

def deliver (bytes : List UInt8) (failure : Option PyExc) : Prog Transport Unit := do
  attempt failure
  modify fun w => { w with output := w.output ++ [bytes] }

def takeTurn : Turn → Prog Transport Unit
  | .idle => pure ()
  | .fromProxy read sent => do
    let bytes ← fromExcept read
    deliver bytes sent
  | .fromClient received written => do
    let _ ← fromExcept received
    attempt written
  | .noSelect e => raise e

def takeTurns : List Turn → Prog Transport Unit
  | [] => pure ()
  | turn :: turns => do
    takeTurn turn
    takeTurns turns

def userUsing (terminal : Terminal) : Prog Transport Unit := do
  attempt terminal.fileno
  takeTurns terminal.turns

/-- `prepare_shell_env` up to the point where there is a proxy process. -/
def startShell (t : Transport) : Prog Transport (Option LBServerMeta) := do
  -- server.shell_event.wait()
  if env.ready (← tick) then do
    let _ ← fromExcept (getpeername env (← tick) t)
    handle (do return some (← createProxyProcess env providers t)) fun e =>
      if e.kind = .userCancelException then do
        sendToChannel env (utf8 "Got EOF, closing session...")
        return none
      else if e.kind.isProviderException then do
        sendToChannel env (utf8 s!"LobbyBoy got exceptions from provider: {e.msg}")
        return none
      else do
        sendToChannel env (utf8 s!"LobbyBoy got exceptions: {e.msg}")
        raise e
  else do
    sendToChannel env (utf8 "*** Client never asked for a shell. Server will end session...")
    return none

def prepareShellEnv (t : Transport) (terminal : Terminal) :
    Prog Transport (Option LBServerMeta) := do
  match ← startShell env providers t with
  | none => return none
  | some m => do
    deliver (List.replicate terminal.windowWidth 61 ++ crlf) terminal.line
    return some m

/-! ### The thread -/

def run (t : Transport) (terminal : Terminal) : Prog Transport Unit :=
  handle (do
    -- t.set_gss_host(socket.getfqdn())
    call env
    if ← prepareServer env then do
      sendToChannel env (utf8 "Welcome to LobbyBoy 0.4.0!")
      match ← prepareShellEnv env providers t terminal with
      | none => cleanup env providers t none false
      | some m => do
        userUsing terminal
        deliver (utf8 s!"LobbyBoy: SSH to remote server {m.serverName} closed." ++ crlf)
          terminal.closing
        cleanup env providers t (some m) true
    else cleanup env providers t none false)
    fun _ => cleanup env providers t none false

end Lobbyboy.SocketHandle
