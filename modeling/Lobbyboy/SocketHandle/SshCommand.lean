import Lobbyboy.Foundation.PosixShell
import Lobbyboy.Provider.ServerKeys

/-! The command that connects to a server. The provider lists its words; they are joined by
spaces, and the shell has to find them again. -/

namespace Lobbyboy.SocketHandle

open Foundation PosixShell Provider BaseProvider Config

/-- The string of `_create_proxy_process` that is run with `shell=True`. -/
def sshCommand (p : BaseProvider) (m : LBServerMeta) : String :=
  " ".intercalate (p.sshServerCommand m)

/-- The words that `/bin/sh -c` makes of it. -/
def proxyWords (sh : Shell) (env : PosixShell.Env) (p : BaseProvider) (m : LBServerMeta) :
    Option (List (List Char)) :=
  words sh env (sshCommand p m).toList

variable {sh : Shell}

/-- The words that are the same for every server. -/
theorem inert_literal : ∀ u ∈ ["ssh", "-i", "-o", "StrictHostKeyChecking=no", "-p", "-l"],
    Inert sh u.toList := by
  have hsafe : ["ssh", "-i", "-o", "StrictHostKeyChecking=no", "-p", "-l"].all
      (fun u => !u.toList.isEmpty && u.toList.all isSafe) = true := by decide
  intro u hu
  have h := List.all_eq_true.mp hsafe u hu
  rw [Bool.and_eq_true] at h
  exact inert_of_isSafe (by simpa using h.1) h.2

/-- A port is digits, behind a minus sign perhaps. -/
theorem inert_port (port : ℤ) : Inert sh (toString port).toList := by
  have hdigits : ∀ n : ℕ, (Nat.toDigits 10 n).all isSafe = true := fun n =>
    List.all_eq_true.mpr fun c hc =>
      isSafe_of_isDigit (Nat.isDigit_of_mem_toDigits (by decide) (by decide) hc)
  cases port with
  | ofNat n =>
    have hlist : (toString (Int.ofNat n)).toList = Nat.toDigits 10 n := Nat.toList_repr
    rw [hlist]
    exact inert_of_isSafe Nat.toDigits_ne_nil (hdigits n)
  | negSucc n =>
    have hlist : (toString (Int.negSucc n)).toList = '-' :: Nat.toDigits 10 (n + 1) := by
      change ("-" ++ (n + 1).repr).toList = _
      rw [String.toList_append, Nat.toList_repr]
      rfl
    rw [hlist]
    refine inert_of_isSafe (List.cons_ne_nil _ _) ?_
    rw [List.all_cons, hdigits]
    decide

/-- The shell finds the words that the provider listed, whatever the variables and the files
are, if and only if the path of the key, the user, the host and the extra arguments mean
nothing to it. -/
theorem createProxyProcess_words_iff (sh : Shell) (p : BaseProvider) (m : LBServerMeta) :
    (∀ env, proxyWords sh env p m = some ((p.sshServerCommand m).map String.toList)) ↔
      Inert sh (p.defaultPrivateKeyPath (some m.workspace)).str.toList ∧
        Inert sh m.serverUser.toList ∧ (∀ arg ∈ m.sshExtraArgs, Inert sh arg.toList) ∧
        Inert sh m.serverHost.toList := by
  have hjoin : (sshCommand p m).toList =
      [' '].intercalate ((p.sshServerCommand m).map String.toList) := String.toList_intercalate
  have hliteral := @inert_literal sh
  simp only [List.forall_mem_cons] at hliteral
  obtain ⟨hssh, hi, ho, hchecking, hp, hl, -⟩ := hliteral
  simp only [proxyWords, hjoin]
  rw [words_join_iff, List.forall_mem_map, sshServerCommand]
  simp only [Option.getD_none, List.forall_mem_append, List.forall_mem_cons, hssh, hi, ho,
    hchecking, hp, hl, inert_port, true_and, List.not_mem_nil, false_imp_iff, forall_const,
    and_true, and_assoc]

/-- A shell as far as these words need one. -/
def plainShell : Shell where
  closing _ _ := none
  bracketPattern _ := false
  bracket_mem _ := nofun

/-- A jump server that is named by a variable, and that variable unset: `ssh` is run with an
empty proxy command. -/
theorem createProxyProcess_variable :
    let p : BaseProvider := ⟨"do", {}, .parse "/data/do", .digitalOcean []⟩
    let m : LBServerMeta := {
      providerName := "do"
      workspace := .parse "/data/do/a"
      serverName := "a"
      createdTimestamp := 0
      sshExtraArgs := ["-o", "ProxyCommand=$jumpServer"] }
    let env : PosixShell.Env := ⟨fun _ => [], fun _ => [], fun _ => []⟩
    proxyWords plainShell env p m ≠ some ((p.sshServerCommand m).map String.toList) ∧
      proxyWords plainShell env p m = some (["ssh", "-i", "/data/do/a/.ssh/id_rsa", "-o",
        "StrictHostKeyChecking=no", "-p", "22", "-l", "root", "-o", "ProxyCommand=",
        "127.0.0.1"].map String.toList) := by
  decide +kernel

end Lobbyboy.SocketHandle
