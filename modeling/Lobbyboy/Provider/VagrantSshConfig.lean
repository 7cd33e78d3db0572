import Lobbyboy.Foundation.DictHistory
import Lobbyboy.Foundation.Transition
import Lobbyboy.Provider.Naming

/-! The vagrant provider's `_tmp_ssh_config_file`. One provider object serves all sessions;
each `create_server` leaves the path of its `ssh_config` in the object, and
`ssh_server_command` names what is there, whichever server it is asked about. -/

namespace Lobbyboy.Provider.VagrantProvider

open Foundation Utils Config BaseProvider

/-! ### The program -/

/-- Where a session stands in `create_server`: it has its name; its directory is made and
`vagrant up` is done; `vagrant ssh-config` is exported. -/
inductive Phase where
  | named (serverName : String)
  | up (serverName : String)
  | exported (serverName : String)

/-- The directories, the sessions that are creating a server, the field of the provider
object, and the records that creations have returned. -/
structure State where
  dirs : List PosixPath
  creating : ℕ → Option Phase
  tmpSshConfigFile : Option PosixPath
  recorded : List LBServerMeta

/-- `__init__`, when the process starts. -/
def State.started (dirs : List PosixPath) (recorded : List LBServerMeta) : State where
  dirs := dirs
  creating _ := none
  tmpSshConfigFile := none
  recorded := recorded

/-- `i` is a session, `now` the time of the record. -/
inductive Action where
  | generateServerName (i : ℕ)
  | vagrantUp (i : ℕ)
  | exportSshConfig (i : ℕ)
  | returnMeta (i : ℕ) (now : ℤ)
  | fail (i : ℕ)
  | restart

variable (p : BaseProvider)

/-- `server_workspace.joinpath("ssh_config")`. -/
def sshConfigFile (workspace : PosixPath) : PosixPath := workspace.joinpath "ssh_config"

def step (s : State) : Action → Option State
  | .generateServerName i =>
    match s.creating i, (numberedNames p.providerConfig).find? (p.isFree s.dirs) with
    | none, some name =>
      some { s with creating := Function.update s.creating i (some (.named name)) }
    | _, _ => none
  | .vagrantUp i =>
    match s.creating i with
    | some (.named name) =>
      some { s with dirs := p.getServerWorkspace name :: s.dirs
                    creating := Function.update s.creating i (some (.up name)) }
    | _ => none
  | .exportSshConfig i =>
    match s.creating i with
    | some (.up name) =>
      some { s with tmpSshConfigFile := some (sshConfigFile (p.getServerWorkspace name))
                    creating := Function.update s.creating i (some (.exported name)) }
    | _ => none
  | .returnMeta i now =>
    match s.creating i with
    | some (.exported name) =>
      some { s with recorded := s.recorded ++ [p.newServer name "127.0.0.1" now]
                    creating := Function.update s.creating i none }
    | _ => none
  -- an exception, at any point
  | .fail i => some { s with creating := Function.update s.creating i none }
  | .restart => some (.started s.dirs s.recorded)

/-- `ssh_server_command(meta)`. -/
def sshServerCommand (s : State) (m : LBServerMeta) : List PyVal :=
  let file := match s.tmpSshConfigFile with
    | some path => PyVal.path path
    | none => .none
  [.str "ssh", .str "-F", file] ++ m.sshExtraArgs.map .str ++ [.str m.serverName]

/-! ### Which file is named -/

/-- The file after `-F` is the one in the server's own workspace. -/
def NamesOwnConfig (s : State) (m : LBServerMeta) : Prop :=
  (sshServerCommand s m)[2]? = some (.path (sshConfigFile m.workspace))

/-- Since the process started, the last export of a run was for that workspace. -/
def LastExport (s : State) (as : List Action) (workspace : PosixPath) : Prop :=
  ∃ before i after s₁ name, as = before ++ .exportSshConfig i :: after ∧
    run (step p) s before = some s₁ ∧ s₁.creating i = some (.up name) ∧
    p.getServerWorkspace name = workspace ∧
    ∀ a ∈ after, a ≠ .restart ∧ ∀ j, a ≠ .exportSshConfig j

variable {p} {s s' s₀ : State} {a : Action} {as : List Action} {m : LBServerMeta}
  {workspace : PosixPath}

theorem sshConfigFile_injective : Function.Injective sshConfigFile := by
  intro w w' h
  have hroot : (PosixPath.parse "ssh_config").root = .relative := by decide
  simp only [sshConfigFile, PosixPath.joinpath, if_pos hroot, PosixPath.mk.injEq] at h
  exact PosixPath.ext h.1 (List.append_cancel_right h.2)

theorem namesOwnConfig_iff :
    NamesOwnConfig s m ↔ s.tmpSshConfigFile = some (sshConfigFile m.workspace) := by
  unfold NamesOwnConfig sshServerCommand
  cases s.tmpSshConfigFile <;> simp

/-- What a step does to the field. -/
theorem tmpSshConfigFile_step (h : step p s a = some s') :
    (∃ i name, a = .exportSshConfig i ∧ s.creating i = some (.up name) ∧
      s'.tmpSshConfigFile = some (sshConfigFile (p.getServerWorkspace name))) ∨
    (a = .restart ∧ s'.tmpSshConfigFile = none) ∨
    (a ≠ .restart ∧ (∀ j, a ≠ .exportSshConfig j) ∧
      s'.tmpSshConfigFile = s.tmpSshConfigFile) := by
  cases a with
  | exportSshConfig i =>
    simp only [step] at h
    split at h
    · next name hname =>
      cases h
      exact .inl ⟨i, name, rfl, hname, rfl⟩
    · cases h
  | restart =>
    cases h
    exact .inr (.inl ⟨rfl, rfl⟩)
  | generateServerName i | vagrantUp i | returnMeta i now =>
    simp only [step] at h
    split at h <;> cases h
    exact .inr (.inr ⟨by simp, by simp, rfl⟩)
  | fail i =>
    cases h
    exact .inr (.inr ⟨by simp, by simp, rfl⟩)

/-- One more step of a run. -/
theorem lastExport_concat {s₁ : State} (hrun : run (step p) s₀ as = some s₁) :
    LastExport p s₀ (as ++ [a]) workspace ↔
      (∃ i name, a = .exportSshConfig i ∧ s₁.creating i = some (.up name) ∧
        p.getServerWorkspace name = workspace) ∨
      (a ≠ .restart ∧ (∀ j, a ≠ .exportSshConfig j) ∧ LastExport p s₀ as workspace) := by
  constructor
  · rintro ⟨before, i, after, s₂, name, has, hbefore, hname, hw, hafter⟩
    rcases concat_eq_append_cons.mp has with ⟨rfl, rfl, -⟩ | ⟨after', rfl, rfl⟩
    · cases hrun.symm.trans hbefore
      exact .inl ⟨i, name, rfl, hname, hw⟩
    · obtain ⟨hrestart, hexport⟩ := hafter a (by simp)
      exact .inr ⟨hrestart, hexport, before, i, after', s₂, name, rfl, hbefore, hname, hw,
        fun a' ha' => hafter a' (by simp [ha'])⟩
  · rintro (⟨i, name, rfl, hname, hw⟩ | ⟨hrestart, hexport, before, i, after, s₂, name, rfl,
      hbefore, hname, hw, hafter⟩)
    · exact ⟨as, i, [], s₁, name, rfl, hrun, hname, hw, by simp⟩
    · refine ⟨before, i, after ++ [a], s₂, name, by simp, hbefore, hname, hw, ?_⟩
      intro a' ha'
      rcases List.mem_append.mp ha' with ha' | ha'
      · exact hafter a' ha'
      · rw [List.mem_singleton.mp ha']
        exact ⟨hrestart, hexport⟩

/-- After any run, the field holds what was exported last. -/
theorem tmpSshConfigFile_run {dirs : List PosixPath} {recorded : List LBServerMeta} :
    ∀ {as : List Action} {s : State}, run (step p) (.started dirs recorded) as = some s →
      (s.tmpSshConfigFile = some (sshConfigFile workspace) ↔
        LastExport p (.started dirs recorded) as workspace) := by
  intro as
  induction as using List.reverseRecOn with
  | nil =>
    intro s h
    cases h
    constructor
    · intro hnone
      cases hnone
    · rintro ⟨before, i, after, s₁, name, has, -⟩
      simp at has
  | append_singleton as a ih =>
    intro s h
    obtain ⟨s₁, hrun, hstep⟩ := run_concat_eq_some.mp h
    rw [lastExport_concat hrun]
    rcases tmpSshConfigFile_step hstep with ⟨i, name, rfl, hname, htmp⟩ | ⟨rfl, htmp⟩ |
      ⟨hrestart, hexport, htmp⟩
    · rw [htmp, Option.some.injEq, sshConfigFile_injective.eq_iff]
      constructor
      · exact fun hw => .inl ⟨i, name, rfl, hname, hw⟩
      · rintro (⟨j, name', hj, hname', hw⟩ | ⟨-, hnot, -⟩)
        · cases hj
          cases hname.symm.trans hname'
          exact hw
        · exact absurd rfl (hnot i)
    · rw [htmp]
      simp
    · rw [htmp, ih hrun]
      constructor
      · exact fun hlast => .inr ⟨hrestart, hexport, hlast⟩
      · rintro (⟨j, name, rfl, -⟩ | ⟨-, -, hlast⟩)
        · exact absurd rfl (hexport j)
        · exact hlast

/-- For every server that a run has recorded, the command names the server's own file
exactly when the last export since the process started was for its workspace. -/
theorem namesOwnConfig_run_iff (p : BaseProvider) (dirs : List PosixPath)
    (recorded : List LBServerMeta) (as : List Action) (s : State)
    (h : run (step p) (.started dirs recorded) as = some s) :
    ∀ m ∈ s.recorded, NamesOwnConfig s m ↔
      LastExport p (.started dirs recorded) as m.workspace := by
  intro m _
  rw [namesOwnConfig_iff, tmpSshConfigFile_run h]

/-- Two servers, created at the same time; the first one exports its file last. -/
theorem namesOwnConfig_run_iff_two :
    let p : BaseProvider := ⟨"vagrant", {}, .parse "/data/vagrant", .vagrant⟩
    let as : List Action := [.generateServerName 0, .vagrantUp 0, .generateServerName 1,
      .vagrantUp 1, .exportSshConfig 1, .exportSshConfig 0, .returnMeta 0 7, .returnMeta 1 7]
    ∃ s, run (step p) (.started [] []) as = some s ∧
      s.recorded = [p.newServer "1" "127.0.0.1" 7, p.newServer "2" "127.0.0.1" 7] ∧
      ∀ m ∈ s.recorded, NamesOwnConfig s m ↔ LastExport p (.started [] []) as m.workspace := by
  intro p as
  have hrecorded : (run (step p) (.started [] []) as).map State.recorded =
      some [p.newServer "1" "127.0.0.1" 7, p.newServer "2" "127.0.0.1" 7] := by
    decide +kernel
  obtain ⟨s, hs, hservers⟩ := Option.map_eq_some_iff.mp hrecorded
  exact ⟨s, hs, hservers, namesOwnConfig_run_iff p [] [] as s hs⟩

/-- After a second creation the first server is reached through the file of the second, and
after a restart through no file at all. -/
theorem names_other_config :
    let p : BaseProvider := ⟨"vagrant", {}, .parse "/data/vagrant", .vagrant⟩
    let create (i : ℕ) : List Action :=
      [.generateServerName i, .vagrantUp i, .exportSshConfig i, .returnMeta i 7]
    let m := p.newServer "1" "127.0.0.1" 7
    (∃ s, run (step p) (.started [] []) (create 0 ++ create 1) = some s ∧ m ∈ s.recorded ∧
      sshServerCommand s m =
        [.str "ssh", .str "-F", .path (.parse "/data/vagrant/2/ssh_config"), .str "1"] ∧
      ¬ NamesOwnConfig s m) ∧
    ∃ s, run (step p) (.started [] []) (create 0 ++ [.restart]) = some s ∧ m ∈ s.recorded ∧
      sshServerCommand s m = [.str "ssh", .str "-F", .none, .str "1"] ∧ ¬ NamesOwnConfig s m := by
  intro p create m
  have htwo : (run (step p) (.started [] []) (create 0 ++ create 1)).map
      (fun s => (s.recorded, s.tmpSshConfigFile)) =
        some ([m, p.newServer "2" "127.0.0.1" 7], some (.parse "/data/vagrant/2/ssh_config")) := by
    decide +kernel
  have hrestart : (run (step p) (.started [] []) (create 0 ++ [.restart])).map
      (fun s => (s.recorded, s.tmpSshConfigFile)) = some ([m], none) := by
    decide +kernel
  obtain ⟨s, hs, hfields⟩ := Option.map_eq_some_iff.mp htwo
  obtain ⟨s', hs', hfields'⟩ := Option.map_eq_some_iff.mp hrestart
  obtain ⟨hrecorded, htmp⟩ := Prod.mk.inj hfields
  obtain ⟨hrecorded', htmp'⟩ := Prod.mk.inj hfields'
  have hother : some (PosixPath.parse "/data/vagrant/2/ssh_config") ≠
      some (sshConfigFile m.workspace) := by decide +kernel
  constructor
  · refine ⟨s, hs, by simp [hrecorded], ?_, ?_⟩
    · rw [sshServerCommand, htmp]
      rfl
    · rw [namesOwnConfig_iff, htmp]
      exact hother
  · refine ⟨s', hs', by simp [hrecorded'], ?_, ?_⟩
    · rw [sshServerCommand, htmp']
      rfl
    · rw [namesOwnConfig_iff, htmp']
      exact (Option.some_ne_none _).symm

end Lobbyboy.Provider.VagrantProvider
