import Lobbyboy.ServerKiller.Rounds

/-! The end of a session: its transport leaves the session table, the server is
destroyed if nobody else uses it and its time is up, and the connection is closed. -/

namespace Lobbyboy.SocketHandle

open Foundation Utils Config Provider ServerKiller Prog

variable (env : Env Transport) (providers : Providers)

/-- `transport.getpeername()`, which raises once the connection is lost. -/
def getpeername (n : ℕ) (t : Transport) : Except PyExc (String × ℕ) :=
  match env.lost n t with
  | none => .ok t.peer
  | some e => .error e

/-- `list(filter(lambda x: x.getpeername() != peer_name, sessions))`. -/
def filterSessions (n : ℕ) (peerName : String × ℕ) :
    List Transport → Except PyExc (List Transport)
  | [] => .ok []
  | x :: xs => do
    let name ← getpeername env n x
    let rest ← filterSessions n peerName xs
    return if name ≠ peerName then x :: rest else rest

def removeServerSession (transport : Transport) (serverName : String) : Prog Transport Unit := do
  let peerName ← fromExcept (getpeername env (← tick) transport)
  let activeSession ← readSessions env
  match activeSession.sessions serverName with
  | [] => pure ()
  | sessions => do
    let rest ← fromExcept (filterSessions env (← tick) peerName sessions)
    modify fun w => { w with activeSession := w.activeSession.assign serverName rest }

def destroyServerIfNeeded (server : LBServerMeta) : Prog Transport Unit := do
  match providers.get? server.providerName with
  | none => raise ⟨.keyError, server.providerName⟩
  | some provider =>
    let verdict ← needDestroyNow env provider.providerConfig server
    sendToChannel env (utf8 s!"LobbyBoy: This server {verdict.2}.")
    if verdict.1 then do
      sendToChannel env
        (utf8 s!"LobbyBoy: I will destroy {server.serverName}({server.serverHost}) now!")
      destroy env provider server
      sendToChannel env
        (utf8 s!"LobbyBoy: Server {server.serverName}({server.serverHost}) has been destroyed.")
    else pure ()

/-- `channel.shutdown(0)`, if there is one, and `t.close()`. -/
def hangUp : Prog Transport Unit := do
  let w ← get
  if w.channel then call env else pure ()
  call env

/-- Without a server only the connection is closed. -/
def cleanup (t : Transport) : Option LBServerMeta → Bool → Prog Transport Unit
  | none, _ => hangUp env
  | some server, checkDestroy => do
    removeServerSession env t server.serverName
    if checkDestroy then destroyServerIfNeeded env providers server else pure ()
    hangUp env

end Lobbyboy.SocketHandle
