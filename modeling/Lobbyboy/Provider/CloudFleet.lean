import Lobbyboy.Provider.NameRaces
import Lobbyboy.Provider.ServerIds

/-! Cloud servers that are created and destroyed by many at the same time. A creation takes
a name, asks the API for a server, saves what it is told and returns a record; the records
go into the database and are read back from it, and whoever holds one can destroy by it,
however long ago it was read. Whatever the order, a server is destroyed by the provider
that made it and under its own id. -/

namespace Lobbyboy.Provider

open Foundation Utils Config BaseProvider

/-- The workspaces of all providers, under the names of their servers. -/
def workspaces : Board (List PosixPath) (BaseProvider × String) where
  taken dirs k := !k.1.isFree dirs k.2
  make dirs k := k.1.getServerWorkspace k.2 :: dirs
  taken_make dirs k := by simp [isFree, dirExists]
  taken_of_taken {dirs k k'} h := by
    simp only [isFree, Bool.not_not] at h ⊢
    exact dirExists_of_subset (List.subset_cons_self _ _) h

theorem taken_workspaces (dirs : List PosixPath) (k : BaseProvider × String) :
    workspaces.taken dirs k = dirExists dirs (k.1.getServerWorkspace k.2) :=
  Bool.not_not _

theorem same_of_workspace_eq {k k' : BaseProvider × String}
    (h : k.1.getServerWorkspace k.2 = k'.1.getServerWorkspace k'.2) : workspaces.Same k k' := by
  intro dirs
  rw [taken_workspaces, taken_workspaces, h]

/-- A call of `create_server`, after its name. -/
inductive Progress
  | naming
  | requested (p : BaseProvider) (serverName : String) (obj : SdkObject)
  | saved (p : BaseProvider) (serverName : String) (obj : SdkObject)
  | returned

/-- A server with the call that made it and the record that was returned for it. -/
structure CloudServer (ι : Type) where
  caller : ι
  provider : BaseProvider
  id : ApiId
  server : LBServerMeta

/-- A call of `destroy_server`, with what the API answers and what it was asked to delete;
`returned` is the number of creations that had returned by then. -/
structure Deletion where
  provider : BaseProvider
  server : LBServerMeta
  api : CloudApi
  asked : List Json
  returned : ℕ

/-- Nothing else is deleted, and it is if it is found. -/
def Deletion.AsksFor (x : Deletion) (id : Json) : Prop :=
  (x.api.Honest → ∀ i ∈ x.asked, i = id) ∧ (x.api.Finds id → x.asked = [id])

/-- `loaded` is what has been read from the database so far. -/
structure CloudFleet (ι : Type) where
  naming : Board.State ι (List PosixPath) (BaseProvider × String)
  progress : ι → Progress
  files : Files
  db : DbFile
  creations : List (CloudServer ι)
  loaded : List LBServerMeta
  deletions : List Deletion

/-- The first three are the steps of the name. Others can make directories at any time. What
an update adds has been returned by a creation: `_ask_user_to_create_server` is its only
caller that adds. -/
inductive CloudAction (ι : Type)
  | call (i : ι) (provider : String) (now : DateTime)
  | pathExists (i : ι)
  | mkdir (i : ι)
  | makeDirs (dirs : List PosixPath)
  | request (i : ι) (obj : SdkObject)
  | save (i : ι)
  | finish (i : ι) (serverHost : String) (now : ℤ)
  | update (now : ℤ) (new deleted : List LBServerMeta)
  | load (now : ℤ)
  | destroy (m : LBServerMeta) (api : CloudApi)

namespace CloudFleet

variable {ι : Type} [DecidableEq ι]

omit [DecidableEq ι] in
/-- Nobody has called yet. -/
def start (dirs : List PosixPath) (files : Files) (db : DbFile) : CloudFleet ι :=
  ⟨⟨dirs, fun _ => .idle⟩, fun _ => .naming, files, db, [], [], []⟩

def setProgress (s : CloudFleet ι) (i : ι) (x : Progress) : CloudFleet ι :=
  { s with progress := Function.update s.progress i x }

@[simp] theorem setProgress_self (s : CloudFleet ι) (i : ι) (x : Progress) :
    (s.setProgress i x).progress i = x := Function.update_self ..

theorem setProgress_of_ne (s : CloudFleet ι) {i j : ι} (h : j ≠ i) (x : Progress) :
    (s.setProgress i x).progress j = s.progress j := Function.update_of_ne h ..

def name (s : CloudFleet ι) (a : Board.Action ι (BaseProvider × String)) :
    Option (CloudFleet ι) := do
  let naming ← workspaces.step true s.naming a
  return { s with naming := naming }

omit [DecidableEq ι] in
def holders (s : CloudFleet ι) : List LBServerMeta :=
  s.creations.map CloudServer.server ++ s.loaded

def step (providers : Providers) (s : CloudFleet ι) : CloudAction ι → Option (CloudFleet ι)
  | .call i provider now => do
    let p ← providers.get? provider
    let _ ← p.kind.cloud?
    s.name (.start i ((minuteNames p.providerConfig now).map (p, ·)))
  | .pathExists i => s.name (.look i)
  | .mkdir i => s.name (.make i)
  | .makeDirs dirs =>
    if s.naming.board ⊆ dirs then some { s with naming := { s.naming with board := dirs } }
    else none
  | .request i obj =>
    match s.naming.phase i, s.progress i with
    | .made _ (p, serverName), .naming => some (s.setProgress i (.requested p serverName obj))
    | _, _ => none
  | .save i =>
    match s.progress i with
    | .requested p serverName obj => do
      let cloud ← p.kind.cloud?
      let files ← (saveRawServer s.files (cloud.rawServer obj)
        (p.getServerWorkspace serverName)).toOption
      return setProgress { s with files := files } i (.saved p serverName obj)
    | _ => none
  | .finish i serverHost now =>
    match s.progress i with
    | .saved p serverName obj =>
      some (setProgress { s with
        creations := s.creations ++ [⟨i, p, obj.id, p.newServer serverName serverHost now⟩] } i
          .returned)
    | _ => none
  | .update now new deleted =>
    if new ⊆ s.creations.map CloudServer.server then do
      let r ← (updateLocalServers now s.db new deleted).toOption
      return { s with db := r.2 }
    else none
  | .load now => do
    let d ← (loadLocalServers now s.db).toOption
    return { s with loaded := s.loaded ++ d.values }
  | .destroy m api =>
    if m ∈ s.holders then do
      let p ← providers.get? m.providerName
      let cloud ← p.kind.cloud?
      return { s with
        deletions := s.deletions ++
          [⟨p, m, api, (cloud.destroyServer api s.files m).1, s.creations.length⟩] }
    else none

/-- The created object carries its id. -/
def CarriesId (s : CloudFleet ι) : CloudAction ι → Prop
  | .request i obj => ∀ before p serverName, s.naming.phase i = .made before (p, serverName) →
      ∀ cloud ∈ p.kind.cloud?, obj.CarriesId cloud
  | _ => True

/-! ### What every step keeps -/

/-- The id that is saved in a workspace. -/
def savedId (files : Files) (workspace : PosixPath) : Except PyExc Json := do
  subscript "id" (← loadRawServer files workspace)

/-- Every workspace has one call that made it, and it is a directory; those that were there
before were made by none. -/
structure Named (providers : Providers) (dirs : List PosixPath)
    (s : Board.State ι (List PosixPath) (BaseProvider × String)) : Prop where
  exclusive : workspaces.Exclusive s
  spread : workspaces.Spread s
  known : ∀ i, (s.phase i).All fun k => providers.get? k.1.name = some k.1
  grown : dirs ⊆ s.board
  new : ∀ {i before k}, s.phase i = .made before k →
    dirExists dirs (k.1.getServerWorkspace k.2) = false

/-- A call goes on in the workspace that it made. -/
def Owns (s : CloudFleet ι) (i : ι) (p : BaseProvider) (serverName : String) : Prop :=
  ∃ before, s.naming.phase i = .made before (p, serverName)

/-- Each call keeps its id in its own workspace. -/
structure Saved (dirs : List PosixPath) (files : Files) (s : CloudFleet ι) : Prop where
  requested : ∀ {i p serverName obj}, s.progress i = .requested p serverName obj →
    s.Owns i p serverName ∧ ∀ cloud ∈ p.kind.cloud?, obj.CarriesId cloud
  saved : ∀ {i p serverName obj}, s.progress i = .saved p serverName obj →
    s.Owns i p serverName ∧ savedId s.files (p.getServerWorkspace serverName) = .ok obj.id.toJson
  created : ∀ c ∈ s.creations, s.progress c.caller = .returned ∧
    s.Owns c.caller c.provider c.server.serverName ∧
    c.server.workspace = c.provider.getServerWorkspace c.server.serverName ∧
    c.server.providerName = c.provider.name ∧ savedId s.files c.server.workspace = .ok c.id.toJson
  callers : s.creations.Pairwise fun c c' => c.caller ≠ c'.caller
  untouched : ∀ workspace, dirExists dirs workspace = true →
    savedId s.files workspace = savedId files workspace

/-- The record was there before, or it was returned for a server. -/
def Has (old : ServerMap) (s : CloudFleet ι) (m : LBServerMeta) : Prop :=
  m ∈ old.values ∨ ∃ c ∈ s.creations, c.server = m

omit [DecidableEq ι] in
/-- The servers whose creation had returned when that deletion was called. -/
def before (s : CloudFleet ι) (x : Deletion) : List (CloudServer ι) := s.creations.take x.returned

/-- The server that is destroyed is the one that the record is of. -/
def Right (dirs : List PosixPath) (files : Files) (old : ServerMap) (s : CloudFleet ι)
    (x : Deletion) : Prop :=
  (∃ c ∈ s.before x, c.server = x.server ∧ x.provider = c.provider ∧ x.AsksFor c.id.toJson) ∨
  x.server ∈ old.values ∧ (∀ c ∈ s.before x, c.server ≠ x.server) ∧
    ∀ id, dirExists dirs x.server.workspace = true →
      savedId files x.server.workspace = .ok id → x.AsksFor id

structure Recorded (dirs : List PosixPath) (files : Files) (old : ServerMap)
    (s : CloudFleet ι) : Prop where
  db : ∃ d, Records s.db d ∧ ∀ m ∈ d.values, s.Has old m
  loaded : ∀ m ∈ s.loaded, s.Has old m
  returned : ∀ x ∈ s.deletions, x.returned ≤ s.creations.length
  right : ∀ x ∈ s.deletions, s.Right dirs files old x

section Invariant

variable {providers : Providers} {dirs : List PosixPath} {files : Files} {old : ServerMap}
  {s s' : CloudFleet ι}

theorem toOption_eq_some {ε α : Type} {x : Except ε α} {a : α} :
    x.toOption = some a ↔ x = .ok a := by
  cases x <;> simp [Except.toOption]

theorem name_eq_some {a : Board.Action ι (BaseProvider × String)} :
    s.name a = some s' ↔ ∃ naming, workspaces.step true s.naming a = some naming ∧
      s' = { s with naming := naming } := by
  simp only [name, Option.bind_eq_bind, Option.bind_eq_some_iff, Option.pure_def,
    Option.some.injEq, eq_comm (b := s')]

/-! ### The name -/

theorem Named.step {s s' : Board.State ι (List PosixPath) (BaseProvider × String)}
    {a : Board.Action ι (BaseProvider × String)} (h : Named providers dirs s)
    (hgiven : ∀ i candidates, a = .start i candidates →
      ∀ k ∈ candidates, providers.get? k.1.name = some k.1)
    (hs : workspaces.step true s a = some s') : Named providers dirs s' where
  exclusive := Board.exclusive_step h.exclusive hs
  spread := Board.spread_step h.exclusive h.spread hs
  known := Board.all_step hgiven h.known hs
  grown := by
    rcases Board.board_of_step hs with hb | ⟨k, hb⟩
    · rw [hb]
      exact h.grown
    · rw [hb]
      exact List.subset_cons_of_subset _ h.grown
  new hi := by
    rcases Board.made_of_step hs hi with hi | hfree
    · exact h.new hi
    · rw [taken_workspaces] at hfree
      exact Bool.eq_false_iff.mpr fun hd =>
        Bool.eq_false_iff.mp hfree (dirExists_of_subset h.grown hd)

omit [DecidableEq ι] in
theorem Named.grow {s : Board.State ι (List PosixPath) (BaseProvider × String)}
    (h : Named providers dirs s) {board : List PosixPath} (hboard : s.board ⊆ board) :
    Named providers dirs { s with board := board } where
  exclusive := h.exclusive.grow fun k hk => by
    rw [taken_workspaces] at hk ⊢
    exact dirExists_of_subset hboard hk
  spread := h.spread
  known := h.known
  grown := List.Subset.trans h.grown hboard
  new := h.new

omit [DecidableEq ι] in
theorem Named.ne_of_owns (h : Named providers dirs s.naming) {i j : ι} {p p' : BaseProvider}
    {serverName serverName' : String} (hi : s.Owns i p serverName) (hj : s.Owns j p' serverName')
    (hij : i ≠ j) : p.getServerWorkspace serverName ≠ p'.getServerWorkspace serverName' := by
  obtain ⟨before, hi⟩ := hi
  obtain ⟨before', hj⟩ := hj
  exact fun heq => hij (h.spread i j _ _ _ _ hi hj (same_of_workspace_eq heq))

/-! ### What is saved -/

omit [DecidableEq ι] in
/-- The calls that have their names keep them. -/
theorem Saved.rename (h : Saved dirs files s)
    {naming : Board.State ι (List PosixPath) (BaseProvider × String)}
    (hmade : ∀ i before k, s.naming.phase i = .made before k → naming.phase i = .made before k) :
    Saved dirs files { s with naming := naming } where
  requested hi := by
    obtain ⟨⟨before, howns⟩, hobj⟩ := h.requested hi
    exact ⟨⟨before, hmade _ _ _ howns⟩, hobj⟩
  saved hi := by
    obtain ⟨⟨before, howns⟩, hid⟩ := h.saved hi
    exact ⟨⟨before, hmade _ _ _ howns⟩, hid⟩
  created c hc := by
    obtain ⟨hreturned, ⟨before, howns⟩, hrest⟩ := h.created c hc
    exact ⟨hreturned, ⟨before, hmade _ _ _ howns⟩, hrest⟩
  callers := h.callers
  untouched := h.untouched

theorem Saved.setProgress (h : Saved dirs files s) {i : ι} {x : Progress}
    (hi : s.progress i ≠ .returned)
    (hrequested : ∀ p serverName obj, x = .requested p serverName obj →
      s.Owns i p serverName ∧ ∀ cloud ∈ p.kind.cloud?, obj.CarriesId cloud)
    (hsaved : ∀ p serverName obj, x = .saved p serverName obj → s.Owns i p serverName ∧
      savedId s.files (p.getServerWorkspace serverName) = .ok obj.id.toJson) :
    Saved dirs files (s.setProgress i x) := by
  constructor
  · intro j p serverName obj hj
    by_cases hji : j = i
    · subst hji
      rw [setProgress_self] at hj
      exact hrequested _ _ _ hj
    · rw [s.setProgress_of_ne hji] at hj
      exact h.requested hj
  · intro j p serverName obj hj
    by_cases hji : j = i
    · subst hji
      rw [setProgress_self] at hj
      exact hsaved _ _ _ hj
    · rw [s.setProgress_of_ne hji] at hj
      exact h.saved hj
  · intro c hc
    obtain ⟨hreturned, hrest⟩ := h.created c hc
    have hne : c.caller ≠ i := by
      rintro rfl
      exact hi hreturned
    exact ⟨(s.setProgress_of_ne hne x).trans hreturned, hrest⟩
  · exact h.callers
  · exact h.untouched

omit [DecidableEq ι] in
/-- A call saves in its own workspace, and no other call has its id there. -/
theorem Saved.save (hn : Named providers dirs s.naming) (h : Saved dirs files s) {i : ι}
    {p : BaseProvider} {serverName : String} {obj : SdkObject} {d : PyDict} {files' : Files}
    (hi : s.progress i = .requested p serverName obj)
    (hsave : saveRawServer s.files d (p.getServerWorkspace serverName) = .ok files') :
    Saved dirs files { s with files := files' } := by
  have howns := (h.requested hi).1
  have hother : ∀ workspace, workspace ≠ p.getServerWorkspace serverName →
      savedId files' workspace = savedId s.files workspace := by
    intro workspace hne
    rw [savedId, savedId, (loadRawServer_save hsave).2 workspace hne]
  refine ⟨h.requested, ?_, ?_, h.callers, ?_⟩
  · intro j p' serverName' obj' hj
    obtain ⟨howns', hid⟩ := h.saved hj
    have hji : j ≠ i := by
      rintro rfl
      cases hi.symm.trans hj
    exact ⟨howns', (hother _ (hn.ne_of_owns howns' howns hji)).trans hid⟩
  · intro c hc
    obtain ⟨hreturned, howns', hworkspace, hprovider, hid⟩ := h.created c hc
    have hci : c.caller ≠ i := by
      intro hci
      rw [hci] at hreturned
      cases hi.symm.trans hreturned
    have hne := hn.ne_of_owns howns' howns hci
    rw [← hworkspace] at hne
    exact ⟨hreturned, howns', hworkspace, hprovider, (hother _ hne).trans hid⟩
  · intro workspace hd
    obtain ⟨before, hmade⟩ := howns
    have hne : workspace ≠ p.getServerWorkspace serverName := by
      rintro rfl
      exact Bool.eq_false_iff.mp (hn.new hmade) hd
    exact (hother workspace hne).trans (h.untouched workspace hd)

theorem Saved.finish (h : Saved dirs files s) {i : ι} {p : BaseProvider} {serverName : String}
    {obj : SdkObject} (hi : s.progress i = .saved p serverName obj) (host : String) (now : ℤ) :
    Saved dirs files (CloudFleet.setProgress { s with
      creations := s.creations ++ [⟨i, p, obj.id, p.newServer serverName host now⟩] } i
        .returned) := by
  have hnot : s.progress i ≠ .returned := by
    rw [hi]
    exact fun hx => by cases hx
  have hset : Saved dirs files (s.setProgress i .returned) :=
    h.setProgress hnot (fun _ _ _ hx => by cases hx) fun _ _ _ hx => by cases hx
  obtain ⟨howns, hid⟩ := h.saved hi
  refine ⟨hset.requested, hset.saved, ?_, ?_, hset.untouched⟩
  · intro c hc
    rcases List.mem_append.mp hc with hc | hc
    · exact hset.created c hc
    · rw [List.mem_singleton.mp hc]
      exact ⟨Function.update_self .., howns, rfl, rfl, hid⟩
  · refine List.pairwise_append.mpr ⟨h.callers, List.pairwise_singleton _ _, ?_⟩
    intro c hc c' hc' heq
    rw [List.mem_singleton.mp hc'] at heq
    have hreturned := (h.created c hc).1
    rw [heq] at hreturned
    exact hnot hreturned

/-! ### What is recorded -/

omit [DecidableEq ι] in
theorem Has.mono {m : LBServerMeta} (h : s.Has old m) (hc : s.creations ⊆ s'.creations) :
    s'.Has old m := by
  refine h.imp_right ?_
  rintro ⟨c, hmem, hcm⟩
  exact ⟨c, hc hmem, hcm⟩

omit [DecidableEq ι] in
/-- Servers are created, and nothing is recorded. -/
theorem Recorded.mono (h : Recorded dirs files old s) (hc : s.creations <+: s'.creations)
    (hdb : s'.db = s.db) (hloaded : s'.loaded = s.loaded) (hdel : s'.deletions = s.deletions) :
    Recorded dirs files old s' := by
  obtain ⟨d, hrec, hvalues⟩ := h.db
  refine ⟨⟨d, hdb ▸ hrec, fun m hm => (hvalues m hm).mono hc.subset⟩, ?_, ?_, ?_⟩
  · rw [hloaded]
    exact fun m hm => (h.loaded m hm).mono hc.subset
  · rw [hdel]
    exact fun x hx => (h.returned x hx).trans hc.length_le
  · rw [hdel]
    intro x hx
    have hbefore : s'.before x = s.before x := by
      obtain ⟨later, hlater⟩ := hc
      rw [before, before, ← hlater, List.take_append_of_le_length (h.returned x hx)]
    have hright := h.right x hx
    rw [Right, hbefore]
    exact hright

omit [DecidableEq ι] in
theorem Recorded.update (h : Recorded dirs files old s) {now : ℤ} {new deleted : List LBServerMeta}
    (hnew : new ⊆ s.creations.map CloudServer.server) {r : ServerMap × DbFile}
    (hu : updateLocalServers now s.db new deleted = .ok r) :
    Recorded dirs files old { s with db := r.2 } := by
  obtain ⟨d, hrec, hvalues⟩ := h.db
  obtain ⟨file', hu', hrec'⟩ := records_update (hrec now) new deleted
  cases hu.symm.trans hu'
  refine ⟨⟨_, hrec', ?_⟩, h.loaded, h.returned, h.right⟩
  rw [mergeServers_eq]
  refine (OrderedDict.forall_mem_values_merge hvalues).mpr ?_
  rintro k m ⟨before, after, heq, -⟩ -
  have hmem : (k, m) ∈ new.map fun s => (s.serverName, s) := by
    rw [heq]
    simp
  obtain ⟨m', hm', heq'⟩ := List.mem_map.mp hmem
  cases heq'
  exact .inr (List.mem_map.mp (hnew hm'))

omit [DecidableEq ι] in
theorem Recorded.load (h : Recorded dirs files old s) {now : ℤ} {d : ServerMap}
    (hload : loadLocalServers now s.db = .ok d) :
    Recorded dirs files old { s with loaded := s.loaded ++ d.values } := by
  obtain ⟨d', hrec, hvalues⟩ := h.db
  cases hload.symm.trans (hrec now)
  refine ⟨⟨d, hrec, hvalues⟩, fun m hm => ?_, h.returned, h.right⟩
  exact (List.mem_append.mp hm).elim (h.loaded m) (hvalues m)

omit [DecidableEq ι] in
/-- A record that somebody has leads to its own server. -/
theorem Recorded.destroy (hn : Named providers dirs s.naming) (hs : Saved dirs files s)
    (h : Recorded dirs files old s) {m : LBServerMeta} (hm : m ∈ s.holders) {p : BaseProvider}
    {cloud : Cloud} (hp : providers.get? m.providerName = some p) (api : CloudApi) :
    Recorded dirs files old { s with
      deletions := s.deletions ++
        [⟨p, m, api, (cloud.destroyServer api s.files m).1, s.creations.length⟩] } := by
  have hbefore : s.creations.take s.creations.length = s.creations := List.take_length
  refine ⟨h.db, h.loaded, fun x hx => ?_, fun x hx => ?_⟩
  · rcases List.mem_append.mp hx with hx | hx
    · exact h.returned x hx
    · rw [List.mem_singleton.mp hx]
  rcases List.mem_append.mp hx with hx | hx
  · exact h.right x hx
  rw [List.mem_singleton.mp hx]
  have hhas : s.Has old m := by
    rcases List.mem_append.mp hm with hm | hm
    · exact .inr (List.mem_map.mp hm)
    · exact h.loaded m hm
  by_cases hreturned : ∃ c ∈ s.creations, c.server = m
  · obtain ⟨c, hc, rfl⟩ := hreturned
    obtain ⟨-, ⟨_, hmade⟩, -, hprovider, hid⟩ := hs.created c hc
    have hknown := hn.known c.caller
    rw [hmade] at hknown
    rw [hprovider] at hp
    refine .inl ⟨c, ?_, rfl, Option.some.inj (hp.symm.trans hknown),
      destroyServer_of_serverId hid⟩
    rw [before, hbefore]
    exact hc
  · refine .inr ⟨hhas.resolve_right hreturned, fun c hc heq => ?_, fun id hd hid => ?_⟩
    · rw [before, hbefore] at hc
      exact hreturned ⟨c, hc, heq⟩
    · exact destroyServer_of_serverId ((hs.untouched _ hd).trans hid)

/-- All of it. -/
structure Kept (providers : Providers) (dirs : List PosixPath) (files : Files) (old : ServerMap)
    (s : CloudFleet ι) : Prop where
  named : Named providers dirs s.naming
  saved : Saved dirs files s
  recorded : Recorded dirs files old s

omit [DecidableEq ι] in
theorem kept_start {db : DbFile} (hdb : Records db old) :
    Kept providers dirs files old (start dirs files db : CloudFleet ι) where
  named :=
    { exclusive := Board.exclusive_idle dirs
      spread := Board.spread_idle dirs
      known := fun _ => trivial
      grown := List.Subset.refl dirs
      new := fun h => by cases h }
  saved :=
    { requested := fun h => by cases h
      saved := fun h => by cases h
      created := fun _ h => by cases h
      callers := .nil
      untouched := fun _ _ => rfl }
  recorded :=
    { db := ⟨old, hdb, fun _ hm => .inl hm⟩
      loaded := fun _ h => by cases h
      returned := fun _ h => by cases h
      right := fun _ h => by cases h }

theorem Kept.name (h : Kept providers dirs files old s)
    {a : Board.Action ι (BaseProvider × String)}
    (hgiven : ∀ i candidates, a = .start i candidates →
      ∀ k ∈ candidates, providers.get? k.1.name = some k.1)
    (hs : s.name a = some s') : Kept providers dirs files old s' := by
  obtain ⟨naming, hn, rfl⟩ := name_eq_some.mp hs
  refine ⟨h.named.step hgiven hn, h.saved.rename fun i before k hi => ?_,
    h.recorded.db, h.recorded.loaded, h.recorded.returned, h.recorded.right⟩
  rw [Board.phase_of_ended (by rw [hi]; trivial) hn, hi]

theorem kept_step (hnamed : ∀ {k p}, providers.get? k = some p → p.name = k)
    {a : CloudAction ι} (ha : s.CarriesId a) (h : Kept providers dirs files old s)
    (hs : step providers s a = some s') : Kept providers dirs files old s' := by
  cases a with
  | call i provider now =>
    simp only [step, Option.bind_eq_bind, Option.bind_eq_some_iff] at hs
    obtain ⟨p, hp, _, -, hs⟩ := hs
    refine h.name (fun j candidates heq k hk => ?_) hs
    cases heq
    obtain ⟨serverName, -, rfl⟩ := List.mem_map.mp hk
    rw [hnamed hp]
    exact hp
  | pathExists i => exact h.name (fun _ _ heq => by cases heq) hs
  | mkdir i => exact h.name (fun _ _ heq => by cases heq) hs
  | makeDirs made =>
    simp only [step] at hs
    split_ifs at hs with hsub
    cases hs
    exact ⟨h.named.grow hsub, h.saved.rename fun _ _ _ hi => hi, h.recorded.db,
      h.recorded.loaded, h.recorded.returned, h.recorded.right⟩
  | request i obj =>
    simp only [step] at hs
    split at hs
    · next before p serverName hi hprogress =>
      cases hs
      refine ⟨h.named, h.saved.setProgress ?_ ?_ ?_, h.recorded.db, h.recorded.loaded,
        h.recorded.returned, h.recorded.right⟩
      · rw [hprogress]
        exact fun hx => by cases hx
      · rintro p serverName obj ⟨⟩
        exact ⟨⟨before, hi⟩, ha before p serverName hi⟩
      · exact fun _ _ _ hx => by cases hx
    · cases hs
  | save i =>
    simp only [step] at hs
    split at hs
    · next p serverName obj hi =>
      simp only [Option.bind_eq_bind, Option.bind_eq_some_iff, Option.pure_def,
        Option.some.injEq, toOption_eq_some] at hs
      obtain ⟨cloud, hcloud, files', hsave, rfl⟩ := hs
      obtain ⟨howns, hobj⟩ := h.saved.requested hi
      refine ⟨h.named, (h.saved.save h.named hi hsave).setProgress ?_ ?_ ?_, h.recorded.db,
        h.recorded.loaded, h.recorded.returned, h.recorded.right⟩
      · rw [show _ = _ from hi]
        exact fun hx => by cases hx
      · exact fun _ _ _ hx => by cases hx
      · rintro p serverName obj ⟨⟩
        refine ⟨howns, ?_⟩
        exact (loadRawServer_save hsave).1 "id" _ _ (get?_rawServer (hobj cloud hcloud))
          (toJson_toPyVal obj.id)
    · cases hs
  | finish i host now =>
    simp only [step] at hs
    split at hs
    · next p serverName obj hi =>
      cases hs
      exact ⟨h.named, h.saved.finish hi host now,
        h.recorded.mono (List.prefix_append _ _) rfl rfl rfl⟩
    · cases hs
  | update now new deleted =>
    simp only [step] at hs
    split_ifs at hs with hnew
    simp only [Option.bind_eq_bind, Option.bind_eq_some_iff, Option.pure_def,
      Option.some.injEq, toOption_eq_some] at hs
    obtain ⟨r, hu, rfl⟩ := hs
    exact ⟨h.named, ⟨h.saved.requested, h.saved.saved, h.saved.created, h.saved.callers,
      h.saved.untouched⟩, h.recorded.update hnew hu⟩
  | load now =>
    simp only [step, Option.bind_eq_bind, Option.bind_eq_some_iff, Option.pure_def,
      Option.some.injEq, toOption_eq_some] at hs
    obtain ⟨d, hload, rfl⟩ := hs
    exact ⟨h.named, ⟨h.saved.requested, h.saved.saved, h.saved.created, h.saved.callers,
      h.saved.untouched⟩, h.recorded.load hload⟩
  | destroy m api =>
    simp only [step] at hs
    split_ifs at hs with hm
    simp only [Option.bind_eq_bind, Option.bind_eq_some_iff, Option.pure_def,
      Option.some.injEq] at hs
    obtain ⟨p, hp, cloud, -, rfl⟩ := hs
    exact ⟨h.named, ⟨h.saved.requested, h.saved.saved, h.saved.created, h.saved.callers,
      h.saved.untouched⟩, h.recorded.destroy h.named h.saved hm hp api⟩

end Invariant

/-! ### One call -/

section Call

variable {providers : Providers} {s : CloudFleet ι} {i : ι}

variable (providers s) in
/-- The steps of a name leave the rest as it is. -/
theorem run_name {naming naming' : Board.State ι (List PosixPath) (BaseProvider × String)}
    {as : List (Board.Action ι (BaseProvider × String))}
    (has : ∀ a ∈ as, a = .look i ∨ a = .make i)
    (hr : run (workspaces.step true) naming as = some naming') :
    ∃ bs, run (step providers) { s with naming := naming } bs =
      some { s with naming := naming' } := by
  induction as generalizing naming with
  | nil =>
    cases hr
    exact ⟨[], rfl⟩
  | cons a as ih =>
    obtain ⟨ha, has⟩ := List.forall_mem_cons.mp has
    rw [run_cons, Option.bind_eq_some_iff] at hr
    obtain ⟨naming₁, hs, hr⟩ := hr
    obtain ⟨bs, hbs⟩ := ih has hr
    have hname : name { s with naming := naming } a = some { s with naming := naming₁ } :=
      name_eq_some.mpr ⟨naming₁, hs, rfl⟩
    rcases ha with rfl | rfl
    · refine ⟨.pathExists i :: bs, ?_⟩
      rw [run_cons, show step providers _ (.pathExists i) = _ from hname]
      exact hbs
    · refine ⟨.mkdir i :: bs, ?_⟩
      rw [run_cons, show step providers _ (.mkdir i) = _ from hname]
      exact hbs

variable (providers) in
/-- The steps after the name. -/
theorem run_finish {before : List PosixPath} {p : BaseProvider} {serverName : String}
    {cloud : Cloud} {obj : SdkObject} {files : Files}
    (hmade : s.naming.phase i = .made before (p, serverName)) (hprogress : s.progress i = .naming)
    (hcloud : p.kind.cloud? = some cloud)
    (hsave : saveRawServer s.files (cloud.rawServer obj) (p.getServerWorkspace serverName) =
      .ok files) (host : String) (now : ℤ) :
    ∃ s', run (step providers) s [.request i obj, .save i, .finish i host now] = some s' ∧
      s'.naming = s.naming ∧ s'.files = files ∧ s'.db = s.db ∧ s'.loaded = s.loaded ∧
      s'.deletions = s.deletions ∧ s'.creations =
        s.creations ++ [⟨i, p, obj.id, p.newServer serverName host now⟩] := by
  have hrequest : step providers s (.request i obj) =
      some (s.setProgress i (.requested p serverName obj)) := by
    simp only [step, hmade, hprogress]
  obtain ⟨s₁, hs₁⟩ : ∃ s₁, s₁ = s.setProgress i (.requested p serverName obj) := ⟨_, rfl⟩
  have hsaved : step providers s₁ (.save i) =
      some (setProgress { s₁ with files := files } i (.saved p serverName obj)) := by
    have hi : s₁.progress i = .requested p serverName obj := by rw [hs₁, setProgress_self]
    have hfiles : saveRawServer s₁.files (cloud.rawServer obj) (p.getServerWorkspace serverName) =
        .ok files := by rw [hs₁]; exact hsave
    simp only [step, hi, hcloud, Option.bind_eq_bind, Option.bind_some, hfiles]
    rfl
  obtain ⟨s₂, hs₂⟩ : ∃ s₂, s₂ = setProgress { s₁ with files := files } i
      (.saved p serverName obj) := ⟨_, rfl⟩
  have hfinish : step providers s₂ (.finish i host now) = some (setProgress { s₂ with
      creations := s₂.creations ++ [⟨i, p, obj.id, p.newServer serverName host now⟩] } i
        .returned) := by
    have hi : s₂.progress i = .saved p serverName obj := by rw [hs₂, setProgress_self]
    simp only [step, hi]
  have hr : run (step providers) s [.request i obj, .save i, .finish i host now] =
      some (setProgress { s₂ with
        creations := s₂.creations ++ [⟨i, p, obj.id, p.newServer serverName host now⟩] } i
          .returned) := by
    rw [run_cons, hrequest, Option.bind_some, ← hs₁, run_cons, hsaved, Option.bind_some, ← hs₂,
      run_cons, hfinish]
    rfl
  rw [hs₂, hs₁] at hr
  exact ⟨_, hr, rfl, rfl, rfl, rfl, rfl, rfl⟩

/-- The shipped `create_server` is one call of this kind, when what it saves is that of the
created object. -/
theorem run_of_createServer {T : Type} {env : Env T} {w w' : World T} {p : BaseProvider}
    {m : LBServerMeta} {cloud : Cloud} {obj : SdkObject} {files : Files}
    (hp : providers.get? p.name = some p) (hcloud : p.kind.cloud? = some cloud)
    (hidle : s.naming.phase i = .idle) (hprogress : s.progress i = .naming)
    (hrun : createServer env p w = .ok m w') (hdirs : s.naming.board = w.dirs)
    (hsave : saveRawServer s.files (cloud.rawServer obj) m.workspace = .ok files) :
    ∃ as s', run (step providers) s as = some s' ∧ s'.naming.board = w'.dirs ∧
      s'.files = files ∧ s'.db = s.db ∧ s'.loaded = s.loaded ∧ s'.deletions = s.deletions ∧
      s'.creations = s.creations ++ [⟨i, p, obj.id, m⟩] := by
  obtain ⟨⟨host, now, hm⟩, hrequested⟩ := wp_of_ok (creates_createServer w) hrun
  obtain ⟨made, hmade⟩ := hrequested.dirs
  obtain ⟨localTime, hfree⟩ := hrequested.named
  have hworkspace : m.workspace = p.getServerWorkspace m.serverName := by rw [hm]; rfl
  have hminute : p.candidates localTime = minuteNames p.providerConfig localTime := by
    unfold BaseProvider.candidates
    split
    · next hk =>
      rw [hk] at hcloud
      cases hcloud
    · rfl
  rw [firstFree, hminute, ← hdirs] at hfree
  obtain ⟨candidates, hcandidates⟩ : ∃ candidates : List (BaseProvider × String),
      candidates = (minuteNames p.providerConfig localTime).map (p, ·) := ⟨_, rfl⟩
  have hfirst : candidates.find? (fun k => !workspaces.taken s.naming.board k) =
      some (p, m.serverName) := by
    rw [hcandidates, List.find?_map, show (_ ∘ _) = p.isFree s.naming.board from ?_, hfree, hm]
    · rfl
    · funext serverName
      exact Bool.not_not _
  have hcall : step providers s (.call i p.name localTime) = some { s with
      naming := s.naming.setPhase i (.looking s.naming.board candidates) } := by
    simp only [step, hp, hcloud, Option.bind_eq_bind, Option.bind_some, name, Board.step, hidle,
      hcandidates, Option.pure_def]
  obtain ⟨as, has, hr⟩ := Board.run_made workspaces true
    (s := s.naming.setPhase i (.looking s.naming.board candidates)) (Board.State.setPhase_self ..)
    hfirst
  obtain ⟨bs, hbs⟩ := run_name providers s has hr
  obtain ⟨named, hnamed⟩ : ∃ named, named = Board.State.setPhase
      { s.naming.setPhase i (.looking s.naming.board candidates) with
        board := workspaces.make s.naming.board (p, m.serverName) } i
      (.made s.naming.board (p, m.serverName)) := ⟨_, rfl⟩
  have hphase : named.phase i = .made s.naming.board (p, m.serverName) := by
    rw [hnamed, Board.State.setPhase_self]
  have hgrown : named.board ⊆ w'.dirs := by
    rw [hmade, hnamed, ← hdirs]
    exact List.cons_subset_cons _ (List.subset_append_right _ _)
  have hbs' : run (step providers) { s with
      naming := s.naming.setPhase i (.looking s.naming.board candidates) } bs =
      some { s with naming := named } := by
    rw [hnamed]
    exact hbs
  have hmakeDirs : step providers { s with naming := named } (.makeDirs w'.dirs) =
      some { s with naming := { named with board := w'.dirs } } := if_pos hgrown
  obtain ⟨s', hr', hnaming, hrest⟩ := run_finish providers
    (s := { s with naming := { named with board := w'.dirs } }) hphase hprogress hcloud
    (hworkspace ▸ hsave) host now
  refine ⟨.call i p.name localTime :: (bs ++ (.makeDirs w'.dirs ::
    [.request i obj, .save i, .finish i host now])), s', ?_,
    congrArg Board.State.board hnaming, ?_⟩
  · rw [run_cons, hcall, Option.bind_some, run_append hbs', run_cons, hmakeDirs]
    exact hr'
  · rw [hm]
    exact hrest

end Call

/-! ### Whole runs -/

/-- However the calls interleave, no two servers share a workspace. Each deletion by a record
that a creation has returned by then is asked of the provider that created the server, for
its id alone. Any other deletion is by a record that was there at the start, and asks for
the id that was saved, if the server had its workspace. -/
theorem destroys_own {providers : Providers}
    (hnamed : ∀ {k p}, providers.get? k = some p → p.name = k) {dirs : List PosixPath}
    {files : Files} {db : DbFile} {old : ServerMap} (hdb : Records db old)
    {as : List (CloudAction ι)} {s : CloudFleet ι}
    (hsdk : Along (step providers) CarriesId (start dirs files db) as)
    (hr : run (step providers) (start dirs files db) as = some s) :
    (s.creations.Pairwise fun c c' => c.server.workspace ≠ c'.server.workspace) ∧
    ∀ x ∈ s.deletions,
      (∃ c ∈ s.before x, c.server = x.server ∧ x.provider = c.provider ∧
        x.AsksFor c.id.toJson) ∨
      x.server ∈ old.values ∧ (∀ c ∈ s.before x, c.server ≠ x.server) ∧
        ∀ id, dirExists dirs x.server.workspace = true →
          savedId files x.server.workspace = .ok id → x.AsksFor id := by
  have h : Kept providers dirs files old s :=
    run_invariant (kept_step hnamed) hsdk (kept_start hdb) hr
  refine ⟨?_, h.recorded.right⟩
  refine (List.pairwise_iff_forall_sublist.mpr fun {c c'} hsub => ?_)
  have hcallers := List.pairwise_iff_forall_sublist.mp h.saved.callers hsub
  obtain ⟨-, howns, hworkspace, -⟩ := h.saved.created c (hsub.subset (by simp))
  obtain ⟨-, howns', hworkspace', -⟩ := h.saved.created c' (hsub.subset (by simp))
  rw [hworkspace, hworkspace']
  exact h.named.ne_of_owns howns howns' hcallers

/-- Two users create within one minute, and both servers are destroyed. -/
theorem destroys_own_two :
    let p : BaseProvider := ⟨"digitalocean", {}, .parse "/data/digitalocean", .digitalOcean []⟩
    let droplet : ℤ → SdkObject := fun id =>
      ⟨.int id, .ofPairs [("_log", .other "Logger"), ("id", .int id)]⟩
    let now : DateTime := ⟨2012, 1, 14, 12, 0, 1⟩
    let m := p.newServer "2012-01-14-1200" "10.0.0.1" 6
    let m' := p.newServer "2012-01-14-1200a" "10.0.0.2" 5
    let as : List (CloudAction ℕ) := [.call 0 "digitalocean" now, .call 1 "digitalocean" now,
      .pathExists 0, .mkdir 0, .pathExists 1, .pathExists 1, .mkdir 1, .request 0 (droplet 42),
      .request 1 (droplet 43), .save 1, .save 0, .finish 1 "10.0.0.2" 5, .update 7 [m'] [],
      .finish 0 "10.0.0.1" 6, .destroy m echoApi, .destroy m' echoApi]
    ∃ s, run (step (.ofPairs [("digitalocean", p)])) (start [] (fun _ => none) none) as = some s ∧
      s.deletions.length = 2 ∧ ∀ x ∈ s.deletions,
        x.server = m ∧ x.AsksFor (.int 42) ∨ x.server = m' ∧ x.AsksFor (.int 43) := by
  intro p droplet now m m' as
  have hrun : (run (step (.ofPairs [("digitalocean", p)])) (start [] (fun _ => none) none) as).any
      (fun s => decide (s.deletions.length = 2 ∧
        s.creations.map (fun c => (c.server, c.id)) = [(m', .int 43), (m, .int 42)])) = true := by
    decide +kernel
  obtain ⟨s, hs, h⟩ := (Option.any_eq_true _ _).mp hrun
  obtain ⟨hlength, hcreations⟩ := decide_eq_true_eq.mp h
  refine ⟨s, hs, hlength, fun x hx => ?_⟩
  have hnamed : ∀ {k q}, (OrderedDict.ofPairs [("digitalocean", p)]).get? k = some q →
      q.name = k := by
    intro k q hq
    have hmem := OrderedDict.get?_eq_some_iff.mp hq
    cases List.mem_singleton.mp hmem
    rfl
  have hcarries : ∀ a ∈ as, ∀ s : CloudFleet ℕ, s.CarriesId a := by
    intro a ha s
    cases a with
    | request i obj =>
      have hobj : (i = 0 ∧ obj = droplet 42) ∨ (i = 1 ∧ obj = droplet 43) := by
        simpa [as] using ha
      rcases hobj with ⟨-, rfl⟩ | ⟨-, rfl⟩ <;> exact fun _ _ _ _ _ _ _ => rfl
    | _ => trivial
  obtain ⟨c, hc, hserver, -, hasks⟩ | ⟨hold, -⟩ :=
    (destroys_own hnamed records_absent (along_of_forall hcarries _) hs).2 x hx
  · have hmem : (c.server, c.id) ∈ s.creations.map fun c => (c.server, c.id) :=
      List.mem_map_of_mem (List.mem_of_mem_take hc)
    rw [hcreations, hserver, List.mem_cons, List.mem_singleton, Prod.mk.injEq,
      Prod.mk.injEq] at hmem
    rcases hmem with ⟨hm, hid⟩ | ⟨hm, hid⟩
    · rw [hid] at hasks
      exact .inr ⟨hm, hasks⟩
    · rw [hid] at hasks
      exact .inl ⟨hm, hasks⟩
  · cases hold

end CloudFleet

end Lobbyboy.Provider
