import Lobbyboy.Provider.Base

/-! The names of new servers. A provider has a list of candidates, one after another, and
takes the first one whose directory is not in its workspace: the minute with a letter, or
for vagrant a number. -/

namespace Lobbyboy.Provider

open Foundation Utils Config Prog

namespace BaseProvider

/-- `server_name_prefix` and a hyphen before the name, if there is one. -/
def withPrefix (config : LBConfigProvider) (name : String) : String :=
  match config.serverNamePrefix with
  | none => name
  | some p => if p = "" then name else s!"{p}-{name}"

def minuteName (config : LBConfigProvider) (now : DateTime) : String :=
  withPrefix config (now.strftime "%Y-%m-%d-%H%M")

/-- `["", *string.ascii_lowercase]`. -/
def suffixes : List String := "" :: "abcdefghijklmnopqrstuvwxyz".toList.map Char.toString

/-- What `generate_default_server_name` tries. -/
def minuteNames (config : LBConfigProvider) (now : DateTime) : List String :=
  suffixes.map (minuteName config now ++ ·)

/-- The plain name, and the 26 names with a letter behind it. -/
theorem minuteNames_eq (config : LBConfigProvider) (now : DateTime) :
    minuteNames config now = minuteName config now :: (List.range 26).map fun i =>
      minuteName config now ++ (Char.ofNat ('a'.toNat + i)).toString := by
  have hsuffixes : suffixes =
      "" :: (List.range 26).map fun i => (Char.ofNat ('a'.toNat + i)).toString := by decide
  rw [minuteNames, hsuffixes, List.map_cons, List.map_map, String.append_empty]
  rfl

theorem mem_minuteNames_iff {config : LBConfigProvider} {now : DateTime} {name : String} :
    name ∈ minuteNames config now ↔ name = minuteName config now ∨
      ∃ i < 26, name = minuteName config now ++ (Char.ofNat ('a'.toNat + i)).toString := by
  simp only [minuteNames_eq, List.mem_cons, List.mem_map, List.mem_range, eq_comm]

/-- What `VagrantProvider.generate_server_name` tries, for `range(1, 99)`. -/
def numberedNames (config : LBConfigProvider) : List String :=
  (List.range 98).map fun i => withPrefix config (toString (i + 1))

variable (p : BaseProvider)

def getServerWorkspace (serverName : String) : PosixPath := p.workspace.joinpath serverName

/-- The record of a new server. -/
def newServer (serverName serverHost : String) (now : ℤ) : LBServerMeta :=
  { providerName := p.name, serverName := serverName, workspace := p.getServerWorkspace serverName,
    serverHost := serverHost, createdTimestamp := now }

/-- What is tried, whichever the provider. -/
def candidates (now : DateTime) : List String :=
  match p.kind with
  | .vagrant => numberedNames p.providerConfig
  | _ => minuteNames p.providerConfig now

def isFree (dirs : List PosixPath) (serverName : String) : Bool :=
  !dirExists dirs (p.getServerWorkspace serverName)

/-- The first candidate without a directory. -/
def firstFree (dirs : List PosixPath) (now : DateTime) : Option String :=
  (p.candidates now).find? (p.isFree dirs)

end BaseProvider

open BaseProvider

section Program

variable {T : Type} (env : Env T) (p : BaseProvider)

/-- The loop of `generate_default_server_name`, which makes the directory. -/
def claimName : List String → Prog T (Option String)
  | [] => pure none
  | name :: names => do
    let w ← get
    if p.isFree w.dirs name then do
      makeDir env (p.getServerWorkspace name)
      return some name
    else claimName names

def generateDefaultServerName : Prog T String := do
  let now := env.localTime (← tick)
  match ← claimName env p (minuteNames p.providerConfig now) with
  | some name => return name
  | none =>
    let serverName := minuteName p.providerConfig now
    raise ⟨.noAvailableNameException, s!"{p.name}'s server {serverName}[a-z] already exist!"⟩

/-- The directory is left to `create_server`. -/
def VagrantProvider.generateServerName : Prog T String := do
  let w ← get
  match (numberedNames p.providerConfig).find? (p.isFree w.dirs) with
  | some name => return name
  | none =>
    let serverName := withPrefix p.providerConfig "98"
    raise ⟨.noAvailableNameException, s!"{p.name}'s server {serverName}[a-z] already exist!"⟩

end Program

/-! ### The name is the first free one -/

section Specs

variable {T : Type} {env : Env T} {p : BaseProvider}

/-- Besides the conversation, directories may have been made. -/
structure Made (w w' : World T) : Prop where
  db : w'.db = w.db
  activeSession : w'.activeSession = w.activeSession
  dirs : ∃ made, w'.dirs = made ++ w.dirs
  log : w'.log = w.log

theorem Made.of_silent {w w' : World T} (h : Silent w w') : Made w w' :=
  ⟨h.db, h.activeSession, ⟨[], h.dirs⟩, h.log⟩

theorem Made.trans {w w₁ w' : World T} (h : Made w w₁) (h' : Made w₁ w') : Made w w' := by
  obtain ⟨made, hmade⟩ := h.dirs
  obtain ⟨made', hmade'⟩ := h'.dirs
  exact ⟨h'.db.trans h.db, h'.activeSession.trans h.activeSession,
    ⟨made' ++ made, by rw [hmade', hmade, List.append_assoc]⟩, h'.log.trans h.log⟩

theorem Made.makeDir (w : World T) (path : PosixPath) :
    Made w { w.next with dirs := path :: w.dirs } :=
  ⟨rfl, rfl, ⟨[path], rfl⟩, rfl⟩

theorem claimName_spec (names : List String) (w : World T) :
    wp (claimName env p names) (fun r w' => Made w w' ∧ r = names.find? (p.isFree w.dirs))
      (fun _ w' => Made w w') w := by
  induction names with
  | nil => simpa [claimName] using Made.of_silent (silent.refl w)
  | cons name names ih =>
    simp only [claimName, wp_bind, wp_get, wp_ite, wp_makeDir, wp_pure]
    split_ifs with hfree
    · refine ⟨fun _ => ⟨.makeDir w _, ?_⟩, fun e _ => .of_silent ⟨rfl, rfl, rfl, rfl⟩⟩
      rw [List.find?_cons_of_pos hfree]
    · rw [List.find?_cons_of_neg hfree]
      exact ih

/-- What a naming function of that provider does. -/
def Names (p : BaseProvider) (generate : Prog T String) : Prop :=
  ∀ w, wp generate (fun name w' => Made w w' ∧ ∃ now, p.firstFree w.dirs now = some name)
    (fun _ w' => Made w w') w

theorem names_default (h : p.kind ≠ .vagrant) : Names p (generateDefaultServerName env p) := by
  intro w
  have hcand : ∀ now, p.candidates now = minuteNames p.providerConfig now := by
    intro now
    unfold candidates
    split
    · next hk => exact absurd hk h
    · rfl
  have hnext : Made w w.next := .of_silent ⟨rfl, rfl, rfl, rfl⟩
  simp only [generateDefaultServerName, wp_bind, wp_tick]
  refine wp_mono (claimName_spec _ _) ?_ fun _ w' hmade => hnext.trans hmade
  rintro r w' ⟨hmade, hr⟩
  cases r with
  | none => simpa using hnext.trans hmade
  | some name =>
    rw [wp_pure]
    exact ⟨hnext.trans hmade, _, by rw [firstFree, hcand]; exact hr.symm⟩

theorem names_vagrant (h : p.kind = .vagrant) :
    Names p (VagrantProvider.generateServerName p : Prog T String) := by
  intro w
  have hmade : Made w w := .of_silent (silent.refl w)
  simp only [VagrantProvider.generateServerName, wp_bind, wp_get]
  cases hr : (numberedNames p.providerConfig).find? (p.isFree w.dirs) with
  | none => simpa using hmade
  | some name =>
    rw [wp_pure]
    exact ⟨hmade, ⟨0, 0, 0, 0, 0, 0⟩, by rw [firstFree, candidates, h]; exact hr⟩

end Specs

end Lobbyboy.Provider
