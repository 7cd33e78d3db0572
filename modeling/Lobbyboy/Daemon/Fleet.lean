import Lobbyboy.Foundation.Transition
import Lobbyboy.SocketHandle.Creation

/-! The names of servers over runs. A provider looks for a free name in its own
workspace, while the database and the session table know servers by their bare name, so
a new server may take the name, and the record, of another provider's. -/

namespace Lobbyboy.Daemon

open Foundation Utils Config Provider SocketHandle

variable {T : Type}

/-! ### The providers of a configuration -/

/-- `cls(name=provider_name, config=..., workspace=config.data_dir.joinpath(provider_name))`. -/
def initProvider (dataDir : PosixPath) (name : String) (c : LBConfigProvider × ProviderKind) :
    BaseProvider := ⟨name, c.1, dataDir.joinpath name, c.2⟩

/-- The providers that `main` sets up. -/
def initProviders (dataDir : PosixPath)
    (configured : OrderedDict String (LBConfigProvider × ProviderKind)) : Providers where
  entries := configured.entries.map fun e => (e.1, initProvider dataDir e.1 e.2)
  nodup := by simpa [Function.comp_def] using configured.nodup

section InitProviders

variable {dataDir : PosixPath} {configured : OrderedDict String (LBConfigProvider × ProviderKind)}
  {p : BaseProvider}

/-- A provider is known under its own name. -/
theorem name_of_get? {name : String} (h : (initProviders dataDir configured).get? name = some p) :
    p.name = name := by
  obtain ⟨e, -, he⟩ := List.mem_map.mp (OrderedDict.get?_eq_some_iff.mp h)
  cases he
  rfl

theorem get?_of_mem_values (h : p ∈ (initProviders dataDir configured).values) :
    (initProviders dataDir configured).get? p.name = some p := by
  obtain ⟨e, he, rfl⟩ := List.mem_map.mp h
  obtain ⟨c, hc, rfl⟩ := List.mem_map.mp he
  exact OrderedDict.get?_eq_some_iff.mpr he

end InitProviders

/-! ### The system -/

/-- What naming and recording a server reads and changes. -/
structure Fleet (T : Type) where
  db : ServerMap
  dirs : List PosixPath
  activeSession : ActiveSession T

/-- `made` are directories that were made besides the workspace of the new server.
`makeDirs` is a creation that did not come to the end; `session` is whatever the sessions
do to their table. -/
inductive FleetAction (T : Type)
  | create (provider : String) (now : DateTime) (serverHost : String) (createdTimestamp : ℤ)
    (made : List PosixPath)
  | makeDirs (made : List PosixPath)
  | delete (server : LBServerMeta)
  | session (activeSession : ActiveSession T)

namespace Fleet

def step (providers : Providers) (s : Fleet T) : FleetAction T → Option (Fleet T)
  | .create provider now serverHost createdTimestamp made => do
    let p ← providers.get? provider
    let serverName ← p.firstFree s.dirs now
    return { s with
      db := mergeServers s.db [p.newServer serverName serverHost createdTimestamp] []
      dirs := p.getServerWorkspace serverName :: (made ++ s.dirs) }
  | .makeDirs made => some { s with dirs := made ++ s.dirs }
  | .delete m => some { s with db := mergeServers s.db [] [m] }
  | .session d => some { s with activeSession := d }

/-- One entry was added, for a name that had none, and everything else is as it was. -/
def AddsRecord (s s' : Fleet T) : Prop :=
  ∃ m : LBServerMeta, m.serverName ∉ s.db.keys ∧
    s'.db.entries = s.db.entries ++ [(m.serverName, m)] ∧ s'.activeSession = s.activeSession

/-- What a creation should do. -/
def Fresh (providers : Providers) (s : Fleet T) (a : FleetAction T) : Prop :=
  match a with
  | .create .. => ∀ s', step providers s a = some s' → AddsRecord s s'
  | _ => True

/-- The first name that is free in the provider's workspace is not that of another
provider's server. -/
def Clear (providers : Providers) (s : Fleet T) : FleetAction T → Prop
  | .create provider now _ _ _ => ∀ p, providers.get? provider = some p →
      ∀ serverName, p.firstFree s.dirs now = some serverName →
        ∀ m, s.db.get? serverName = some m → m.providerName = provider
  | _ => True

/-- Every recorded server has its directory in the workspace of its provider. -/
def Housed (providers : Providers) (s : Fleet T) : Prop :=
  ∀ serverName m, s.db.get? serverName = some m → ∀ p, providers.get? m.providerName = some p →
    dirExists s.dirs (p.getServerWorkspace serverName) = true

/-! ### Every recorded server has its workspace -/

section Invariant

variable {providers : Providers} {s s' : Fleet T}

theorem step_create {k : String} {now : DateTime} {host : String} {created : ℤ}
    {made : List PosixPath} :
    step providers s (.create k now host created made) = some s' ↔
      ∃ p name, providers.get? k = some p ∧ p.firstFree s.dirs now = some name ∧
        s' = { s with db := s.db.insert name (p.newServer name host created),
                      dirs := p.getServerWorkspace name :: (made ++ s.dirs) } := by
  simp only [step, Option.bind_eq_bind, Option.bind_eq_some_iff, Option.pure_def,
    Option.some.injEq, mergeServers_new]
  constructor
  · rintro ⟨p, hp, name, hname, rfl⟩
    exact ⟨p, name, hp, hname, rfl⟩
  · rintro ⟨p, name, hp, hname, rfl⟩
    exact ⟨p, hp, name, hname, rfl⟩

/-- Fewer records and more directories. -/
theorem Housed.mono (h : Housed providers s)
    (hdb : ∀ name m, s'.db.get? name = some m → s.db.get? name = some m)
    (hdirs : s.dirs ⊆ s'.dirs) : Housed providers s' :=
  fun name m hm p hp => dirExists_of_subset hdirs (h name m (hdb name m hm) p hp)

theorem Housed.step (hnamed : ∀ {k p}, providers.get? k = some p → p.name = k)
    (h : Housed providers s) {a : FleetAction T} (hs : step providers s a = some s') :
    Housed providers s' := by
  cases a with
  | create k now host created made =>
    obtain ⟨p, n, hp, -, rfl⟩ := step_create.mp hs
    intro name m hm q hq
    rw [OrderedDict.get?_insert] at hm
    split_ifs at hm with hn
    · cases hm
      subst hn
      change providers.get? p.name = some q at hq
      rw [hnamed hp, hp] at hq
      cases hq
      simp [dirExists]
    · exact dirExists_of_subset (List.subset_cons_of_subset _ (List.subset_append_right _ _))
        (h name m hm q hq)
  | makeDirs made =>
    cases hs
    exact h.mono (fun _ _ hm => hm) (List.subset_append_right _ _)
  | delete m =>
    cases hs
    refine h.mono (fun name m' hm => ?_) (List.Subset.refl _)
    rw [mergeServers_deleted, OrderedDict.get?_erase] at hm
    split_ifs at hm
    exact hm
  | session d =>
    cases hs
    exact h.mono (fun _ _ hm => hm) (List.Subset.refl _)

theorem fresh_iff_clear (h : Housed providers s) (a : FleetAction T) :
    Fresh providers s a ↔ Clear providers s a := by
  cases a with
  | create k now host created made =>
    constructor
    · intro hfresh p hp name hname m hm
      obtain ⟨m', -, hentries, -⟩ := hfresh _ (step_create.mpr ⟨p, name, hp, hname, rfl⟩)
      exact absurd (OrderedDict.mem_keys_iff.mpr ⟨m, hm⟩)
        (OrderedDict.not_mem_keys_of_entries_insert hentries)
    · intro hclear s' hs
      obtain ⟨p, name, hp, hname, rfl⟩ := step_create.mp hs
      have hnew : name ∉ s.db.keys := by
        intro hmem
        obtain ⟨m, hm⟩ := OrderedDict.mem_keys_iff.mp hmem
        have hfree : p.isFree s.dirs name = true := List.find?_some hname
        have hhoused := h name m hm p (by rw [hclear p hp name hname m hm]; exact hp)
        rw [BaseProvider.isFree, hhoused] at hfree
        cases hfree
      exact ⟨p.newServer name host created, hnew, OrderedDict.entries_insert_of_not_mem hnew, rfl⟩
  | makeDirs made | delete m | session d => exact Iff.rfl

end Invariant

/-! ### What the program does is a step -/

/-- The fleet as it stands in that world. -/
structure Shows (w : World T) (s : Fleet T) : Prop where
  records : Records w.db s.db
  dirs : s.dirs = w.dirs
  activeSession : s.activeSession = w.activeSession

/-- `_ask_user_to_create_server` creates a server, or only makes directories. -/
theorem askUserToCreateServer_refines {dataDir : PosixPath}
    {configured : OrderedDict String (LBConfigProvider × ProviderKind)} {env : Env T}
    {w : World T} {s : Fleet T} (h : Shows w s) :
    wp (askUserToCreateServer env (initProviders dataDir configured))
      (fun m w' => ∃ now host created made s',
        step (initProviders dataDir configured) s
          (.create m.providerName now host created made) = some s' ∧ Shows w' s')
      (fun _ w' => ∃ made s',
        step (initProviders dataDir configured) s (.makeDirs made) = some s' ∧ Shows w' s') w := by
  refine wp_mono (askUserToCreateServer_spec w) ?_ fun _ w' hab => ?_
  · rintro m w' ⟨p, hp, d, ⟨w₁, hcreated, hdirs, -, hsessions⟩, ⟨t, hload⟩, hrec⟩
    cases (h.records t).symm.trans hload
    obtain ⟨host, created, hm⟩ := hcreated.new
    obtain ⟨now, hname⟩ := hcreated.requested.named
    obtain ⟨made, hmade⟩ := hcreated.requested.dirs
    rw [← h.dirs] at hname hmade
    have hp' := get?_of_mem_values hp
    rw [show p.name = m.providerName by rw [hm]; rfl] at hp'
    refine ⟨now, host, created, made, _, step_create.mpr ⟨p, _, hp', hname, rfl⟩, ?_⟩
    refine ⟨?_, by rw [hdirs, hmade], ?_⟩
    · rw [← hm]
      exact hrec
    · rw [hsessions, hcreated.requested.activeSession]
      exact h.activeSession
  · obtain ⟨made, hmade⟩ := hab.dirs
    refine ⟨made, _, rfl, by rw [hab.db]; exact h.records, ?_, ?_⟩
    · rw [hmade, ← h.dirs]
    · rw [hab.activeSession]
      exact h.activeSession

/-! ### Runs -/

/-- From an empty database on: every creation adds a record exactly when no creation
meets the name of another provider's server. -/
theorem fresh_run_iff (dataDir : PosixPath)
    (configured : OrderedDict String (LBConfigProvider × ProviderKind)) (dirs : List PosixPath)
    (activeSession : ActiveSession T) (as : List (FleetAction T)) :
    Along (step (initProviders dataDir configured)) (Fresh (initProviders dataDir configured))
        ⟨.empty, dirs, activeSession⟩ as ↔
      Along (step (initProviders dataDir configured)) (Clear (initProviders dataDir configured))
        ⟨.empty, dirs, activeSession⟩ as :=
  along_congr (P := Housed (initProviders dataDir configured))
    (fun hs h => hs.step name_of_get? h) (fun hs => fresh_iff_clear hs _) nofun

/-- Two providers without a prefix create a server in the same minute: the second record
takes the place of the first. -/
theorem not_fresh_same_minute :
    let configured : OrderedDict String (LBConfigProvider × ProviderKind) :=
      .ofPairs [("footloose", {}, .footloose), ("ignite", {}, .ignite {})]
    let providers := initProviders (.parse "/data") configured
    let noon : DateTime := ⟨2012, 1, 14, 12, 0, 1⟩
    let s : Fleet Transport := ⟨.empty, [], .empty⟩
    let as : List (FleetAction Transport) :=
      [.create "footloose" noon "127.0.0.1" 1326542401 [],
        .create "ignite" noon "127.0.0.1" 1326542430 []]
    ¬ Along (step providers) (Fresh providers) s as ∧
      (run (step providers) s as).map (·.db.keys) = some ["2012-01-14-1200"] := by
  intro configured providers noon s as
  constructor
  · intro h
    have h₁ := (along_cons (step_create.mpr ⟨_, "2012-01-14-1200", rfl, by decide, rfl⟩)).mp h
    obtain ⟨m, -, hentries, -⟩ :=
      h₁.2.1 _ (step_create.mpr ⟨_, "2012-01-14-1200", rfl, by decide, rfl⟩)
    exact OrderedDict.not_mem_keys_of_entries_insert hentries (by decide)
  · decide

end Fleet

end Lobbyboy.Daemon
