import Lobbyboy.Foundation.OrderedDict
import Mathlib.Data.Nat.Notation

/-! The table `active_session`: for each server name the transports of the sessions
that were redirected to it. A name without sessions may be missing or have an empty
list; readers do not tell the two apart. -/

namespace Lobbyboy.Utils

open Foundation

/-- A transport with the address of its peer. -/
structure Transport where
  ident : ℕ
  peer : String × ℕ
  deriving DecidableEq

abbrev ActiveSession (T : Type) := OrderedDict String (List T)

namespace ActiveSession

variable {T : Type}

/-- `active_session.get(server_name, [])`. -/
def sessions (d : ActiveSession T) (serverName : String) : List T := (d.get? serverName).getD []

/-- `active_session.setdefault(server_name, []).append(transport)`. -/
def register (d : ActiveSession T) (serverName : String) (transport : T) : ActiveSession T :=
  d.insert serverName (d.sessions serverName ++ [transport])

/-- `active_session[server_name] = sessions`. -/
def assign (d : ActiveSession T) (serverName : String) (sessions : List T) : ActiveSession T :=
  d.insert serverName sessions

theorem sessions_register (d : ActiveSession T) (serverName name : String) (transport : T) :
    (d.register serverName transport).sessions name =
      if name = serverName then d.sessions serverName ++ [transport] else d.sessions name := by
  simp only [sessions, register, OrderedDict.get?_insert]
  split_ifs <;> rfl

theorem sessions_assign (d : ActiveSession T) (serverName name : String) (ts : List T) :
    (d.assign serverName ts).sessions name = if name = serverName then ts else d.sessions name := by
  simp only [sessions, assign, OrderedDict.get?_insert]
  split_ifs <;> rfl

end ActiveSession

end Lobbyboy.Utils
