import Lobbyboy.Provider.RawServer

/-! Whose server a record deletes. New servers, updates of the database and loads of it
follow one another in any order; a record that is read back leads to the id of the very
server it was returned for, because no two servers ever share a workspace. -/

namespace Lobbyboy.Provider

open Foundation Utils Config BaseProvider

/-- A server that was created, with the record that was returned for it. -/
structure Creation where
  cloud : Cloud
  id : ApiId
  server : LBServerMeta

/-- `creations` is what `create_server` has returned so far. -/
structure Stores where
  dirs : List PosixPath
  files : Files
  db : DbFile
  creations : List Creation

/-- A `create_server` that succeeds, with its readings of the clock, the host, the created
object and the directories made besides the workspace; or an update of the database. -/
inductive StoreStep where
  | create (p : BaseProvider) (localTime : DateTime) (host : String) (now : ℤ) (obj : SdkObject)
      (made : List PosixPath)
  | update (now : ℤ) (new deleted : List LBServerMeta)

/-- The object that is created carries its id. -/
def StoreStep.CarriesId : StoreStep → Prop
  | .create p _ _ _ obj _ => ∀ cloud ∈ p.kind.cloud?, obj.CarriesId cloud
  | .update _ _ _ => True

def Stores.create (s : Stores) (p : BaseProvider) (localTime : DateTime) (host : String) (now : ℤ)
    (obj : SdkObject) (made : List PosixPath) : Option Stores := do
  let cloud ← p.kind.cloud?
  let serverName ← p.firstFree s.dirs localTime
  let workspace := p.getServerWorkspace serverName
  let files ← (saveRawServer s.files (cloud.rawServer obj) workspace).toOption
  return { s with dirs := workspace :: (made ++ s.dirs)
                  files := files
                  creations := s.creations ++ [⟨cloud, obj.id, p.newServer serverName host now⟩] }

/-- Only what was returned for a server is brought in: `_ask_user_to_create_server`, which
adds what `create_server` has returned to it, is the only caller that adds. -/
def Stores.update (s : Stores) (now : ℤ) (new deleted : List LBServerMeta) : Option Stores :=
  if new ⊆ s.creations.map Creation.server then do
    let r ← (updateLocalServers now s.db new deleted).toOption
    return { s with db := r.2 }
  else none

def Stores.step (s : Stores) : StoreStep → Option Stores
  | .create p localTime host now obj made => s.create p localTime host now obj made
  | .update now new deleted => s.update now new deleted

/-! ### One step -/

variable {s s' : Stores} {p : BaseProvider} {d₀ : ServerMap}

theorem create_eq_some {localTime : DateTime} {host : String} {now : ℤ} {obj : SdkObject}
    {made : List PosixPath} :
    s.create p localTime host now obj made = some s' ↔ ∃ cloud serverName files,
      p.kind.cloud? = some cloud ∧ p.firstFree s.dirs localTime = some serverName ∧
        saveRawServer s.files (cloud.rawServer obj) (p.getServerWorkspace serverName) = .ok files ∧
          s' = ⟨p.getServerWorkspace serverName :: (made ++ s.dirs), files, s.db,
            s.creations ++ [⟨cloud, obj.id, p.newServer serverName host now⟩]⟩ := by
  have htoOption : ∀ {x : Except PyExc Files} {a}, x.toOption = some a ↔ x = .ok a := by
    intro x a
    cases x <;> simp [Except.toOption]
  simp only [Stores.create, Option.bind_eq_bind, Option.bind_eq_some_iff, htoOption,
    Option.pure_def, Option.some.injEq]
  constructor
  · rintro ⟨cloud, hcloud, name, hname, files, hfiles, h⟩
    exact ⟨cloud, name, files, hcloud, hname, hfiles, h.symm⟩
  · rintro ⟨cloud, name, files, hcloud, hname, hfiles, h⟩
    exact ⟨cloud, hcloud, name, hname, files, hfiles, h.symm⟩

theorem update_eq_some {now : ℤ} {new deleted : List LBServerMeta} :
    s.update now new deleted = some s' ↔ new ⊆ s.creations.map Creation.server ∧
      ∃ r, updateLocalServers now s.db new deleted = .ok r ∧ s' = { s with db := r.2 } := by
  unfold Stores.update
  split_ifs with hnew
  · cases hu : updateLocalServers now s.db new deleted <;>
      simp [hnew, Except.toOption, eq_comm]
  · simp [hnew]

/-- The first free name has a workspace that is no directory yet. -/
theorem workspace_not_mem_of_firstFree {dirs : List PosixPath} {localTime : DateTime}
    {serverName : String} (h : p.firstFree dirs localTime = some serverName) :
    p.getServerWorkspace serverName ∉ dirs := by
  intro hmem
  have hfree : p.isFree dirs serverName = true := by simpa using List.find?_some h
  have hexists : dirExists dirs (p.getServerWorkspace serverName) = true :=
    List.any_eq_true.mpr ⟨_, hmem, PosixPath.isAbove_self _⟩
  simp [isFree, hexists] at hfree

/-! ### What every step keeps -/

/-- Each record leads to its own id, and no two to the same workspace. -/
structure Stores.Traced (s : Stores) : Prop where
  made : ∀ c ∈ s.creations, c.server.workspace ∈ s.dirs
  saved : ∀ c ∈ s.creations, serverId s.files c.server = .ok c.id.toJson
  apart : s.creations.Pairwise fun c c' => c.server.workspace ≠ c'.server.workspace

/-- The database holds what it held before and what was returned for a server. -/
def Stores.Holds (d₀ : ServerMap) (s : Stores) : Prop :=
  ∃ d, Records s.db d ∧ ∀ m ∈ d.values, m ∈ d₀.values ∨ ∃ c ∈ s.creations, c.server = m

theorem Stores.Traced.create {localTime : DateTime} {host : String} {now : ℤ} {obj : SdkObject}
    {made : List PosixPath} (hs : s.Traced) (hobj : ∀ cloud ∈ p.kind.cloud?, obj.CarriesId cloud)
    (h : s.create p localTime host now obj made = some s') : s'.Traced := by
  obtain ⟨cloud, serverName, files, hcloud, hfree, hsave, rfl⟩ := create_eq_some.mp h
  obtain ⟨hown, hother⟩ := loadRawServer_save hsave
  have hnew := workspace_not_mem_of_firstFree hfree
  have hne : ∀ c ∈ s.creations, c.server.workspace ≠ p.getServerWorkspace serverName :=
    fun c hc heq => hnew (heq ▸ hs.made c hc)
  constructor
  · intro c hc
    rcases List.mem_append.mp hc with hc | hc
    · exact List.mem_cons_of_mem _ (List.mem_append_right _ (hs.made c hc))
    · rw [List.mem_singleton.mp hc]
      exact List.mem_cons_self
  · intro c hc
    rcases List.mem_append.mp hc with hc | hc
    · have hsame : serverId files c.server = serverId s.files c.server := by
        rw [serverId, serverId, hother _ (hne c hc)]
      exact hsame.trans (hs.saved c hc)
    · rw [List.mem_singleton.mp hc]
      exact hown "id" _ _ (get?_rawServer (hobj cloud hcloud)) (toJson_toPyVal obj.id)
  · refine List.pairwise_append.mpr ⟨hs.apart, List.pairwise_singleton _ _, ?_⟩
    intro c hc c' hc'
    rw [List.mem_singleton.mp hc']
    exact hne c hc

theorem Stores.Holds.update {now : ℤ} {new deleted : List LBServerMeta} (hs : s.Holds d₀)
    (h : s.update now new deleted = some s') : s'.Holds d₀ := by
  obtain ⟨hnew, r, hu, rfl⟩ := update_eq_some.mp h
  obtain ⟨d, hrec, hvalues⟩ := hs
  obtain ⟨file', hu', hrec'⟩ := records_update (hrec now) new deleted
  cases hu.symm.trans hu'
  refine ⟨_, hrec', ?_⟩
  rw [mergeServers_eq]
  refine (OrderedDict.forall_mem_values_merge hvalues).mpr ?_
  rintro k m ⟨before, after, heq, -⟩ -
  have hmem : (k, m) ∈ new.map fun s => (s.serverName, s) := by
    rw [heq]
    simp
  obtain ⟨m', hm', heq'⟩ := List.mem_map.mp hmem
  cases heq'
  obtain ⟨c, hc, hcm⟩ := List.mem_map.mp (hnew hm')
  exact .inr ⟨c, hc, hcm⟩

theorem Stores.step_keeps {e : StoreStep} (he : e.CarriesId) (hs : s.Traced ∧ s.Holds d₀)
    (h : s.step e = some s') : s'.Traced ∧ s'.Holds d₀ := by
  cases e with
  | create p localTime host now obj made =>
    refine ⟨hs.1.create he h, ?_⟩
    obtain ⟨cloud, serverName, files, -, -, -, rfl⟩ := create_eq_some.mp h
    obtain ⟨d, hrec, hvalues⟩ := hs.2
    refine ⟨d, hrec, fun m hm => (hvalues m hm).imp_right ?_⟩
    rintro ⟨c, hc, hcm⟩
    exact ⟨c, List.mem_append_left _ hc, hcm⟩
  | update now new deleted =>
    refine ⟨?_, hs.2.update h⟩
    obtain ⟨-, r, -, rfl⟩ := update_eq_some.mp h
    exact ⟨hs.1.made, hs.1.saved, hs.1.apart⟩

/-- The shipped `create_server` takes this step, whatever its environment answers, when what
it saves is that of the created object. -/
theorem create_of_createServer {T : Type} {env : Env T} {w w' : World T} {m : LBServerMeta}
    {cloud : Cloud} {obj : SdkObject} {files : Files} (hcloud : p.kind.cloud? = some cloud)
    (hrun : createServer env p w = .ok m w') (hdirs : s.dirs = w.dirs)
    (hsave : saveRawServer s.files (cloud.rawServer obj) m.workspace = .ok files) :
    ∃ localTime host now made, s.create p localTime host now obj made =
      some ⟨w'.dirs, files, s.db, s.creations ++ [⟨cloud, obj.id, m⟩]⟩ := by
  obtain ⟨⟨host, now, hm⟩, hrequested⟩ := wp_of_ok (creates_createServer w) hrun
  obtain ⟨made, hmade⟩ := hrequested.dirs
  obtain ⟨localTime, hfree⟩ := hrequested.named
  have hworkspace : m.workspace = p.getServerWorkspace m.serverName := by rw [hm]; rfl
  refine ⟨localTime, host, now, made, create_eq_some.mpr ⟨cloud, m.serverName, files, hcloud, ?_⟩⟩
  rw [hdirs, ← hmade, ← hm, ← hworkspace]
  exact ⟨hfree, hsave, rfl⟩

/-! ### Whole runs -/

/-- A database that is loaded after any such run holds its old records and records of
servers that were created, each with a workspace of its own; and to destroy by such a
record is to ask for the deletion of the id of the server it was returned for. -/
theorem destroyServer_of_run {es : List StoreStep} (hnone : s.creations = [])
    (hdb : Records s.db d₀) (hsdk : ∀ e ∈ es, e.CarriesId) (hrun : run Stores.step s es = some s') :
    ∃ d, (∀ now, loadLocalServers now s'.db = .ok d) ∧
      (∀ m ∈ d.values, m ∈ d₀.values ∨ ∃ c ∈ s'.creations, c.server = m) ∧
      (s'.creations.Pairwise fun c c' => c.server.workspace ≠ c'.server.workspace) ∧
      ∀ m ∈ d.values, ∀ c ∈ s'.creations, c.server = m → ∀ api : CloudApi,
        (api.Honest → ∀ i ∈ (c.cloud.destroyServer api s'.files m).1, i = c.id.toJson) ∧
          (api.Finds c.id.toJson →
            (c.cloud.destroyServer api s'.files m).1 = [c.id.toJson]) := by
  have hstart : s.Traced ∧ s.Holds d₀ := by
    refine ⟨⟨?_, ?_, ?_⟩, d₀, hdb, fun m hm => .inl hm⟩ <;> simp [hnone]
  have halong : Along Stores.step (fun _ e => e.CarriesId) s es :=
    along_of_forall (fun e he _ => hsdk e he) s
  obtain ⟨htraced, d, hrec, hvalues⟩ := run_invariant Stores.step_keeps halong hstart hrun
  refine ⟨d, hrec, hvalues, htraced.apart, ?_⟩
  rintro m - c hc rfl api
  exact destroyServer_of_serverId (htraced.saved c hc)

/-- An API that finds whatever it is asked for. -/
def echoApi : CloudApi := ⟨.ok, fun id => .ok (some id), fun _ => .ok true⟩

/-- A droplet with a token, a logger and a price, recorded and destroyed. -/
theorem destroyServer_of_droplet :
    let p : BaseProvider := ⟨"digitalocean", {}, .parse "/data/digitalocean", .digitalOcean []⟩
    let droplet : SdkObject := ⟨.int 42, .ofPairs [("token", .str "secret"),
      ("_log", .other "Logger"), ("id", .int 42), ("price_hourly", .float "0.00744".toList)]⟩
    let m := p.newServer "2012-01-14-1200" "10.0.0.1" 5
    ∃ s', run Stores.step ⟨[], fun _ => none, none, []⟩
        [.create p ⟨2012, 1, 14, 12, 0, 1⟩ "10.0.0.1" 5 droplet [], .update 6 [m] []] = some s' ∧
      loadLocalServers 7 s'.db = .ok (.ofPairs [(m.serverName, m)]) ∧
        (DigitalOceanProvider.destroyServer echoApi s'.files m).1 = [.int 42] := by
  intro p droplet m
  obtain ⟨s₁, h₁, hdb, hcreations⟩ : ∃ s₁, Stores.create ⟨[], fun _ => none, none, []⟩ p
      ⟨2012, 1, 14, 12, 0, 1⟩ "10.0.0.1" 5 droplet [] = some s₁ ∧ s₁.db = none ∧
        s₁.creations = [⟨.digitalOcean, .int 42, m⟩] :=
    ⟨_, create_eq_some.mpr ⟨.digitalOcean, "2012-01-14-1200", _, rfl, by decide, rfl, rfl⟩,
      rfl, rfl⟩
  obtain ⟨s₂, h₂, hdb₂, hcreations₂⟩ : ∃ s₂, s₁.update 6 [m] [] = some s₂ ∧
      s₂.db = some (storedServers (mergeServers .empty [m] [])).dumps ∧
        s₂.creations = s₁.creations := by
    have hu := hdb ▸ updateLocalServers_eq (records_absent 6) [m] []
    exact ⟨_, update_eq_some.mpr ⟨by simp [hcreations], _, hu, rfl⟩, rfl, rfl⟩
  have hrun : run Stores.step ⟨[], fun _ => none, none, []⟩
      [.create p ⟨2012, 1, 14, 12, 0, 1⟩ "10.0.0.1" 5 droplet [], .update 6 [m] []] = some s₂ := by
    simp [run_cons, Stores.step, h₁, h₂]
  have hsdk : ∀ e ∈ ([.create p ⟨2012, 1, 14, 12, 0, 1⟩ "10.0.0.1" 5 droplet [],
      .update 6 [m] []] : List StoreStep), e.CarriesId := by
    refine List.forall_mem_cons.mpr ⟨?_, List.forall_mem_singleton.mpr trivial⟩
    intro cloud _ _
    rfl
  obtain ⟨d, hload, -, -, hdestroy⟩ := destroyServer_of_run rfl records_absent hsdk hrun
  have hd : d = .ofPairs [(m.serverName, m)] := by
    have hkeyed : Keyed (mergeServers .empty [m] []) := keyed_empty.mergeServers _ _
    exact Except.ok.inj ((hload 7).symm.trans (hdb₂ ▸ loadLocalServers_dumps 7 hkeyed))
  subst hd
  refine ⟨s₂, hrun, hload 7, ?_⟩
  exact (hdestroy m (List.mem_singleton_self m) ⟨.digitalOcean, .int 42, m⟩
    (by simp [hcreations₂, hcreations]) rfl echoApi).2 ⟨rfl, rfl⟩

end Lobbyboy.Provider
