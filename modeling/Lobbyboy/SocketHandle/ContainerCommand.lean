import Lobbyboy.Foundation.ShellLists
import Lobbyboy.SocketHandle.SshCommand

/-! The commands that connect to the servers of footloose, ignite and multipass. Each is one
string that changes to the server's workspace and runs the provider's program there; the
shell that is given it has to find both commands again. -/

namespace Lobbyboy.Provider

open Config

/-- `ssh_server_command` of the providers that run a program in the workspace. -/
def enterServer (tool action target : String) (m : LBServerMeta) : List String :=
  [s!"cd {m.workspace.str} && {tool} {action} {target}"]

/-- The login of the machine that footloose makes of a server's name. -/
def FootlooseProvider.login (m : LBServerMeta) : String := "root@" ++ (m.serverName ++ "0")

def FootlooseProvider.sshServerCommand (m : LBServerMeta) : List String :=
  enterServer "footloose" "ssh" (login m) m

def IgniteProvider.sshServerCommand (m : LBServerMeta) : List String :=
  enterServer "ignite" "ssh" m.serverName m

def MultipassProvider.sshServerCommand (m : LBServerMeta) : List String :=
  enterServer "multipass" "shell" m.serverName m

end Lobbyboy.Provider

namespace Lobbyboy.SocketHandle

open Foundation PosixShell Provider Config

/-- The words of each command that `/bin/sh -c` makes of the units of `ssh_server_command`,
which `_create_proxy_process` joins. -/
def proxyCommands (sh : Shell) (env : PosixShell.Env) (units : List String) :
    Option (List (List (List Char))) :=
  andWords sh env (" ".intercalate units).toList

/-- The commands that are meant. -/
def entering (tool action target : String) (m : LBServerMeta) : List (List (List Char)) :=
  [["cd", m.workspace.str], [tool, action, target]].map fun units => units.map String.toList

theorem toList_enterServer (tool action target : String) (m : LBServerMeta) :
    (" ".intercalate (enterServer tool action target m)).toList =
      andText (entering tool action target m) := by
  rw [String.toList_intercalate]
  simp only [enterServer, entering, andText, List.map_cons, List.map_nil,
    List.intercalate_cons_cons, List.intercalate_singleton, String.toList_append,
    List.append_assoc]
  rfl

/-- The commands are found if and only if the path of the workspace and the name behind the
program's action mean nothing to the shell. -/
theorem enterServer_words_iff (sh : Shell) {tool action : String} (htool : Inert sh tool.toList)
    (haction : Inert sh action.toList) (target : String) (m : LBServerMeta) :
    (∀ env, proxyCommands sh env (enterServer tool action target m) =
        some (entering tool action target m)) ↔
      Inert sh m.workspace.str.toList ∧ Inert sh target.toList := by
  have hcd : Inert sh "cd".toList := inert_of_isSafe (by decide) (by decide)
  have hne : entering tool action target m ≠ [] := List.cons_ne_nil _ _
  have hnonempty : ∀ units ∈ entering tool action target m, units ≠ [] := by
    intro units hu
    obtain ⟨units, hmem, rfl⟩ := List.mem_map.mp hu
    simp only [List.mem_cons, List.not_mem_nil, or_false] at hmem
    rcases hmem with rfl | rfl <;> exact List.cons_ne_nil _ _
  simp only [proxyCommands, toList_enterServer]
  rw [andWords_iff hne hnonempty]
  simp only [entering, List.map_cons, List.map_nil, List.forall_mem_cons, List.not_mem_nil,
    false_imp_iff, implies_true, and_true, htool, haction, hcd, true_and]

/-- The shell enters the workspace and runs the program for the server's name, whatever the
variables and the files are, if and only if these two mean nothing to it. -/
theorem createProxyProcess_entersServer (sh : Shell) (m : LBServerMeta) :
    ((∀ env, proxyCommands sh env (FootlooseProvider.sshServerCommand m) =
        some (entering "footloose" "ssh" (FootlooseProvider.login m) m)) ↔
      Inert sh m.workspace.str.toList ∧ Inert sh (FootlooseProvider.login m).toList) ∧
    ((∀ env, proxyCommands sh env (IgniteProvider.sshServerCommand m) =
        some (entering "ignite" "ssh" m.serverName m)) ↔
      Inert sh m.workspace.str.toList ∧ Inert sh m.serverName.toList) ∧
    ((∀ env, proxyCommands sh env (MultipassProvider.sshServerCommand m) =
        some (entering "multipass" "shell" m.serverName m)) ↔
      Inert sh m.workspace.str.toList ∧ Inert sh m.serverName.toList) := by
  have hssh : Inert sh "ssh".toList := inert_of_isSafe (by decide) (by decide)
  have hshell : Inert sh "shell".toList := inert_of_isSafe (by decide) (by decide)
  have hfootloose : Inert sh "footloose".toList := inert_of_isSafe (by decide) (by decide)
  have hignite : Inert sh "ignite".toList := inert_of_isSafe (by decide) (by decide)
  have hmultipass : Inert sh "multipass".toList := inert_of_isSafe (by decide) (by decide)
  exact ⟨enterServer_words_iff sh hfootloose hssh _ m, enterServer_words_iff sh hignite hssh _ m,
    enterServer_words_iff sh hmultipass hshell _ m⟩

end Lobbyboy.SocketHandle
