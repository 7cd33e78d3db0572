import Lobbyboy.Config.Types

/-! The servers database: one JSON file, read whole and written whole. An update is a
load, a change of the dictionary in memory, an opening that truncates, and a write. The
program is the same for any records; the results here are about records of the declared
types and an update that nobody interrupts. -/

namespace Lobbyboy.Config

open Foundation Utils

abbrev ServerMap := OrderedDict String LBServerMeta

/-- The file `servers_db_path`: absent, or with some text. -/
abbrev DbFile := Option String

/-- What the operating system answers: an exception of the reading, other than that the
file is missing; one of the opening for writing; one of the writing or closing, with the
number of characters that have arrived by then. -/
structure FileAnswers where
  reading : Option PyExc := none
  opening : Option PyExc := none
  writing : Option (ℕ × PyExc) := none

/-! ### The program -/

/-- What the loop of `load_local_servers` runs over. A missing file and an undecodable text
are an empty database; `len` refuses what has no length, and a string or an object that is
not empty yields an item that is no mapping. -/
def serversJson (file : DbFile) : Except PyExc (List Json) :=
  match file with
  | none => .ok []
  | some content =>
    if content = "" then .ok []
    else
      match Json.loads content with
      | none => .ok []
      | some (.arr is) => .ok is
      | some (.obj []) => .ok []
      | some (.obj (_ :: _)) => .error ⟨.typeError, "argument after ** must be a mapping, not str"⟩
      | some (.str s) =>
        if s = "" then .ok []
        else .error ⟨.typeError, "argument after ** must be a mapping, not str"⟩
      | some _ => .error ⟨.typeError, "object has no len()"⟩

section Merge

variable {α κ : Type} [DecidableEq κ] (name : α → Except PyExc κ)

/-- The records under their names, up to the first one that raises. -/
def keyed : List α → Except PyExc (List (κ × α))
  | [] => .ok []
  | s :: ss => do return (← name s, s) :: (← keyed ss)

/-- The change in memory: new servers first, in their order, then the removals. -/
def mergeNamed (d : OrderedDict κ α) (new deleted : List α) : Except PyExc (OrderedDict κ α) := do
  let added ← keyed name new
  let removed ← keyed name deleted
  return (d.insertAll (OrderedDict.ofPairs added).entries).eraseAll (removed.map Prod.fst)

variable {name}

omit [DecidableEq κ] in
theorem keyed_eq_ok {ss : List α} {ps : List (κ × α)} (h : keyed name ss = .ok ps) :
    ss = ps.map Prod.snd ∧ ∀ p ∈ ps, name p.2 = .ok p.1 := by
  induction ss generalizing ps with
  | nil => cases h; simp
  | cons s ss ih =>
    simp only [keyed, bind_eq_ok] at h
    obtain ⟨k, hk, ps', hps, h⟩ := h
    cases h
    obtain ⟨rfl, hnames⟩ := ih hps
    refine ⟨rfl, fun p hp => ?_⟩
    rcases List.mem_cons.mp hp with rfl | hp
    · exact hk
    · exact hnames p hp

omit [DecidableEq κ] in
theorem exists_keyed {ss : List α} :
    (∃ ps, keyed name ss = .ok ps) ↔ ∀ s ∈ ss, ∃ k, name s = .ok k := by
  induction ss with
  | nil => simp [keyed]
  | cons s ss ih => simp [keyed, bind_eq_ok, pure, Except.pure, ← ih]

theorem exists_mergeNamed {d : OrderedDict κ α} {new deleted : List α} :
    (∃ d', mergeNamed name d new deleted = .ok d') ↔ ∀ s ∈ new ++ deleted, ∃ k, name s = .ok k := by
  simp only [List.mem_append, or_imp, forall_and, ← exists_keyed, mergeNamed, bind_eq_ok, pure,
    Except.pure]
  constructor
  · rintro ⟨d', added, hadded, removed, hremoved, -⟩
    exact ⟨⟨added, hadded⟩, removed, hremoved⟩
  · rintro ⟨⟨added, hadded⟩, removed, hremoved⟩
    exact ⟨_, added, hadded, removed, hremoved, rfl⟩

end Merge

/-- What the program does with a record: `LBServerMeta(**i)`, `server.server_name` as a key,
and the text of all records. -/
structure ServerClass (α κ : Type) where
  ofJson : Json → Except PyExc α
  name : α → Except PyExc κ
  text : OrderedDict κ α → Except PyExc String

namespace ServerClass

section Program

variable {α κ : Type} [DecidableEq κ] (C : ServerClass α κ) (os : FileAnswers)

/-- The loop `for i in servers_json`. -/
def loadEntries (d : OrderedDict κ α) : List Json → Except PyExc (OrderedDict κ α)
  | [] => .ok d
  | i :: is => do
    let server ← C.ofJson i
    loadEntries (d.insert (← C.name server) server) is

/-- `load_local_servers(servers_db_path)`. -/
def load (file : DbFile) : Except PyExc (OrderedDict κ α) :=
  match os.reading with
  | some e => .error e
  | none => do C.loadEntries .empty (← serversJson file)

/-- `update_local_servers(servers_db_path, new, deleted)`: the result and the file
afterwards. -/
def update (file : DbFile) (new deleted : List α) : Except PyExc (OrderedDict κ α) × DbFile :=
  match do mergeNamed C.name (← C.load os file) new deleted with
  | .error e => (.error e, file)
  | .ok localServers =>
    match os.opening with
    | some e => (.error e, file)
    | none =>
      -- the file is empty from here on
      match C.text localServers with
      | .error e => (.error e, some "")
      | .ok text =>
        match os.writing with
        | some (n, e) => (.error e, some (String.ofList (text.toList.take n)))
        | none => (.ok localServers, some text)

end Program

variable {α κ : Type} [DecidableEq κ] {C : ServerClass α κ} {os : FileAnswers} {file : DbFile}
  {d d' : OrderedDict κ α}

theorem loadEntries_cons_eq_ok {i : Json} {is : List Json} :
    C.loadEntries d (i :: is) = .ok d' ↔ ∃ server k, C.ofJson i = .ok server ∧
      C.name server = .ok k ∧ C.loadEntries (d.insert k server) is = .ok d' := by
  simp only [loadEntries, bind_eq_ok]
  constructor
  · rintro ⟨server, hserver, k, hk, h⟩
    exact ⟨server, k, hserver, hk, h⟩
  · rintro ⟨server, k, hserver, hk, h⟩
    exact ⟨server, hserver, k, hk, h⟩

theorem load_eq_ok_iff (hreading : os.reading = none) :
    C.load os file = .ok d ↔
      ∃ is, serversJson file = .ok is ∧ C.loadEntries .empty is = .ok d := by
  rw [load, hreading]
  exact bind_eq_ok

theorem load_of_reading (hreading : os.reading = none) : C.load os file = C.load {} file := by
  rw [load, load, hreading]

theorem load_refused {e : PyExc} (hreading : os.reading = some e) :
    C.load os file = .error e := by
  rw [load, hreading]

/-- What every turn of the loop keeps holds of what is loaded. -/
theorem load_induction {P : OrderedDict κ α → Prop} (hempty : P .empty)
    (hinsert : ∀ {d i server k}, P d → C.ofJson i = .ok server → C.name server = .ok k →
      P (d.insert k server)) (h : C.load os file = .ok d) : P d := by
  have hentries : ∀ {is : List Json} {d d' : OrderedDict κ α}, P d →
      C.loadEntries d is = .ok d' → P d' := by
    intro is
    induction is with
    | nil =>
      intro d d' hd h
      cases h
      exact hd
    | cons i is ih =>
      intro d d' hd h
      obtain ⟨server, k, hserver, hk, h⟩ := loadEntries_cons_eq_ok.mp h
      exact ih (hinsert hd hserver hk) h
  cases hreading : os.reading with
  | some e => cases (load_refused hreading).symm.trans h
  | none =>
    obtain ⟨is, -, h⟩ := (load_eq_ok_iff hreading).mp h
    exact hentries hempty h

/-- An update that cannot load does not open the file. -/
theorem update_of_load_error {e : PyExc} (h : C.load os file = .error e) (new deleted : List α) :
    C.update os file new deleted = (.error e, file) := by
  rw [update, h]
  rfl

theorem update_of_merge (hload : C.load os file = .ok d) {new deleted : List α}
    (hmerge : mergeNamed C.name d new deleted = .ok d') :
    C.update os file new deleted =
      match os.opening with
      | some e => (.error e, file)
      | none =>
        match C.text d' with
        | .error e => (.error e, some "")
        | .ok text =>
          match os.writing with
          | some (n, e) => (.error e, some (String.ofList (text.toList.take n)))
          | none => (.ok d', some text) := by
  rw [update, hload, ok_bind, hmerge]

end ServerClass

/-! ### Records of the declared types -/

/-- The text that is written. -/
def serversText (d : ServerMap) : Except PyExc String :=
  jsonDumps (.list (d.values.map LBServerMeta.asdict))

def serverClass (now : ℤ) : ServerClass LBServerMeta String where
  ofJson := LBServerMeta.ofJson now
  name server := .ok server.serverName
  text := serversText

/-- The load of a file whose records have these types; `loadObjects` takes any. -/
def loadLocalServers (now : ℤ) (file : DbFile) : Except PyExc ServerMap :=
  (serverClass now).load {} file

/-- The change in memory. -/
def mergeServers (local_ : ServerMap) (new deleted : List LBServerMeta) : ServerMap :=
  (local_.insertAll (OrderedDict.ofPairs (new.map fun s => (s.serverName, s))).entries).eraseAll
    (deleted.map (·.serverName))

/-- The result and the file afterwards, where the operating system refuses nothing. -/
def updateLocalServers (now : ℤ) (file : DbFile) (new deleted : List LBServerMeta) :
    Except PyExc (ServerMap × DbFile) :=
  let (result, file') := (serverClass now).update {} file new deleted
  result.map (·, file')

theorem keyed_serverClass (now : ℤ) (ms : List LBServerMeta) :
    keyed (serverClass now).name ms = .ok (ms.map fun m => (m.serverName, m)) := by
  induction ms with
  | nil => rfl
  | cons m ms ih =>
    rw [keyed, ih]
    rfl

theorem merge_serverClass (now : ℤ) (d : ServerMap) (new deleted : List LBServerMeta) :
    mergeNamed (serverClass now).name d new deleted = .ok (mergeServers d new deleted) := by
  simp only [mergeNamed, keyed_serverClass, ok_bind, List.map_map]
  rfl

/-! ### A written database is read back -/

/-- The JSON value of a database. -/
def storedServers (d : ServerMap) : Json := .arr (d.values.map LBServerMeta.stored)

theorem toJsonItems_asdict (ms : List LBServerMeta) :
    toJsonItems (ms.map LBServerMeta.asdict) = .ok (ms.map LBServerMeta.stored) := by
  induction ms with
  | nil => rfl
  | cons m ms ih =>
    simp [toJsonItems, LBServerMeta.toJson_asdict, ih, bind, Except.bind, pure, Except.pure]

theorem serversText_eq (d : ServerMap) : serversText d = .ok (storedServers d).dumps := by
  simp [serversText, jsonDumps, toJson, toJsonItems_asdict, storedServers, bind, Except.bind, pure,
    Except.pure]

theorem text_serverClass (now : ℤ) (d : ServerMap) :
    (serverClass now).text d = .ok (storedServers d).dumps := serversText_eq d

theorem floatFree_storedServers (d : ServerMap) : (storedServers d).floatFree = true := by
  rw [storedServers, Json.floatFree]
  induction d.values with
  | nil => rfl
  | cons m ms ih => simpa [Json.floatFreeItems, LBServerMeta.floatFree_stored] using ih

theorem loadEntries_stored (now : ℤ) (d : ServerMap) (ms : List LBServerMeta) :
    (serverClass now).loadEntries d (ms.map LBServerMeta.stored) =
      .ok (d.insertAll (ms.map fun m => (m.serverName, m))) := by
  induction ms generalizing d with
  | nil => rfl
  | cons m ms ih =>
    exact ServerClass.loadEntries_cons_eq_ok.mpr
      ⟨m, m.serverName, ofJson_stored now m, rfl, ih _⟩

/-- Every record is filed under its own name. -/
def Keyed (d : ServerMap) : Prop := ∀ ⦃name m⦄, d.get? name = some m → m.serverName = name

theorem keyed_empty : Keyed .empty := by
  intro name m h
  simp at h

theorem Keyed.insert {d : ServerMap} (h : Keyed d) (m : LBServerMeta) :
    Keyed (d.insert m.serverName m) := by
  intro name m' hm
  rw [OrderedDict.get?_insert] at hm
  split_ifs at hm with hname
  · cases hm
    exact hname.symm
  · exact h hm

theorem Keyed.erase {d : ServerMap} (h : Keyed d) (k : String) : Keyed (d.erase k) := by
  intro name m hm
  rw [OrderedDict.get?_erase] at hm
  split_ifs at hm
  exact h hm

/-- The records alone give the dictionary back. -/
theorem Keyed.pairs_values {d : ServerMap} (h : Keyed d) :
    d.values.map (fun m => (m.serverName, m)) = d.entries := by
  rw [OrderedDict.values, List.map_map]
  refine (List.map_congr_left ?_).trans (List.map_id d.entries)
  intro e he
  rw [Function.comp, h (OrderedDict.get?_eq_some_iff.mpr he)]
  rfl

/-- Whatever the file holds, a load that returns files every record under its name. -/
theorem keyed_of_load {now : ℤ} {file : DbFile} {d : ServerMap}
    (h : loadLocalServers now file = .ok d) : Keyed d := by
  refine ServerClass.load_induction keyed_empty (fun hd _ hk => ?_) h
  cases hk
  exact hd.insert _

/-- The file of a database is loaded, at any time, as that database. -/
theorem loadLocalServers_dumps (now : ℤ) {d : ServerMap} (h : Keyed d) :
    loadLocalServers now (some (storedServers d).dumps) = .ok d := by
  have hloads := Json.loads_dumps (Json.written_of_floatFree (floatFree_storedServers d))
  have hne : (storedServers d).dumps ≠ "" := by
    intro he
    rw [he] at hloads
    revert hloads
    simp [show Json.loads "" = none by decide]
  refine (ServerClass.load_eq_ok_iff rfl).mpr ⟨d.values.map LBServerMeta.stored, ?_, ?_⟩
  · rw [serversJson, if_neg hne, hloads]
    rfl
  · rw [loadEntries_stored, h.pairs_values]
    exact congrArg _ (OrderedDict.ofPairs_entries d)

/-! ### The time of a load

A record that lacks its creation time gets the time of the load; the names and their
order do not depend on it. -/

theorem loadEntries_time {now : ℤ} (now' : ℤ) : ∀ {is : List Json} {d d₁ d' : ServerMap},
    (serverClass now).loadEntries d is = .ok d₁ → d'.keys = d.keys →
      ∃ d₂, (serverClass now').loadEntries d' is = .ok d₂ ∧ d₂.keys = d₁.keys
  | [], _, _, d', h, hk => by cases h; exact ⟨d', rfl, hk⟩
  | i :: is, d, d₁, d', h, hk => by
    obtain ⟨m, _, hm, ⟨⟩, h⟩ := ServerClass.loadEntries_cons_eq_ok.mp h
    obtain ⟨created, hm'⟩ := ofJson_time hm now'
    have hkeys : (d'.insert m.serverName { m with createdTimestamp := created }).keys =
        (d.insert m.serverName m).keys := by
      rw [OrderedDict.keys_insert, OrderedDict.keys_insert, hk]
    obtain ⟨d₂, h₂, hk₂⟩ := loadEntries_time now' h hkeys
    exact ⟨d₂, ServerClass.loadEntries_cons_eq_ok.mpr ⟨_, _, hm', rfl, h₂⟩, hk₂⟩

theorem loadLocalServers_time {now : ℤ} {file : DbFile} {d : ServerMap}
    (h : loadLocalServers now file = .ok d) (now' : ℤ) :
    ∃ d', loadLocalServers now' file = .ok d' ∧ d'.keys = d.keys := by
  obtain ⟨is, his, h⟩ := (ServerClass.load_eq_ok_iff rfl).mp h
  obtain ⟨d', h', hk⟩ := loadEntries_time now' h rfl
  exact ⟨d', (ServerClass.load_eq_ok_iff rfl).mpr ⟨is, his, h'⟩, hk⟩

/-- The names that a load finds; a file that cannot be loaded records nobody. -/
def recordedNames (file : DbFile) : List String :=
  match loadLocalServers 0 file with
  | .ok d => d.keys
  | .error _ => []

theorem recordedNames_of_load {now : ℤ} {file : DbFile} {d : ServerMap}
    (h : loadLocalServers now file = .ok d) : recordedNames file = d.keys := by
  obtain ⟨d', h', hk⟩ := loadLocalServers_time h 0
  rw [recordedNames, h', ← hk]

/-! ### One update -/

/-- The change without the dictionary literal: each new record in turn, then each removal. -/
theorem mergeServers_eq (d : ServerMap) (new deleted : List LBServerMeta) :
    mergeServers d new deleted =
      (d.insertAll (new.map fun s => (s.serverName, s))).eraseAll (deleted.map (·.serverName)) := by
  rw [mergeServers, OrderedDict.insertAll_ofPairs]

theorem mergeServers_new (d : ServerMap) (m : LBServerMeta) :
    mergeServers d [m] [] = d.insert m.serverName m := by
  simp [mergeServers_eq]

theorem mergeServers_deleted (d : ServerMap) (m : LBServerMeta) :
    mergeServers d [] [m] = d.erase m.serverName := by
  simp [mergeServers_eq]

theorem Keyed.mergeServers {d : ServerMap} (h : Keyed d) (new deleted : List LBServerMeta) :
    Keyed (mergeServers d new deleted) := by
  rw [mergeServers_eq]
  have hnew : ∀ {ms : List LBServerMeta} {d : ServerMap}, Keyed d →
      Keyed (d.insertAll (ms.map fun s => (s.serverName, s))) := by
    intro ms
    induction ms with
    | nil => exact id
    | cons m ms ih => exact fun hd => ih (hd.insert m)
  have hdel : ∀ {ks : List String} {d : ServerMap}, Keyed d → Keyed (d.eraseAll ks) := by
    intro ks
    induction ks with
    | nil => exact id
    | cons k ks ih => exact fun hd => ih (hd.erase k)
  exact hdel (hnew h)

/-- An update whose load succeeds succeeds, and the file is the one of the merged
database. -/
theorem updateLocalServers_eq {now : ℤ} {file : DbFile} {d : ServerMap}
    (h : loadLocalServers now file = .ok d) (new deleted : List LBServerMeta) :
    updateLocalServers now file new deleted =
      .ok (mergeServers d new deleted,
        some (storedServers (mergeServers d new deleted)).dumps) := by
  rw [updateLocalServers, ServerClass.update_of_merge h (merge_serverClass now d new deleted),
    text_serverClass]
  rfl

theorem updateLocalServers_of_load_error {now : ℤ} {file : DbFile} {e : PyExc}
    (h : loadLocalServers now file = .error e) (new deleted : List LBServerMeta) :
    updateLocalServers now file new deleted = .error e := by
  rw [updateLocalServers, ServerClass.update_of_load_error h]
  rfl

/-- The file is read as `d`, whenever that is. -/
def Records (file : DbFile) (d : ServerMap) : Prop := ∀ now, loadLocalServers now file = .ok d

theorem Records.keyed {file : DbFile} {d : ServerMap} (h : Records file d) : Keyed d :=
  keyed_of_load (h 0)

theorem records_absent : Records none .empty := fun _ => rfl

theorem records_blank : Records (some "") .empty := fun _ => rfl

theorem records_dumps {d : ServerMap} (h : Keyed d) : Records (some (storedServers d).dumps) d :=
  fun now => loadLocalServers_dumps now h

/-- The next load of an updated file sees the merged database. -/
theorem records_update {now : ℤ} {file : DbFile} {d : ServerMap}
    (h : loadLocalServers now file = .ok d) (new deleted : List LBServerMeta) :
    ∃ file', updateLocalServers now file new deleted = .ok (mergeServers d new deleted, file') ∧
      Records file' (mergeServers d new deleted) :=
  ⟨_, updateLocalServers_eq h new deleted,
    records_dumps ((keyed_of_load h).mergeServers new deleted)⟩

theorem mem_recordedNames_update {now : ℤ} {file : DbFile} {new deleted : List LBServerMeta}
    {r : ServerMap × DbFile} (h : updateLocalServers now file new deleted = .ok r) {name : String} :
    name ∈ recordedNames r.2 ↔
      (name ∈ recordedNames file ∨ name ∈ new.map (·.serverName)) ∧
        name ∉ deleted.map (·.serverName) := by
  cases hload : loadLocalServers now file with
  | error e =>
    rw [updateLocalServers_of_load_error hload] at h
    cases h
  | ok d =>
    obtain ⟨file', hu, hrec⟩ := records_update hload new deleted
    rw [hu] at h
    cases h
    rw [recordedNames_of_load (hrec 0), recordedNames_of_load hload, mergeServers_eq,
      OrderedDict.mem_keys_eraseAll, OrderedDict.mem_keys_insertAll, List.map_map]
    rfl

end Lobbyboy.Config
