import Lobbyboy.Config.DbFailure

/-! The file in the middle of an update. `choose_server` and the killer load without
the lock, and a crash leaves what has been written, so every moment of a call can be
read. The opening truncates, and neither an empty nor a cut text can be told from an
empty database: a reader sees the map of before or after exactly when one of the two is
empty. -/

namespace Lobbyboy.Config

open Foundation Utils

section Moments

variable (key : PyVal → Option String) (now : ℤ) (file : DbFile) (new deleted : List ServerObj)

/-- The states of the file during a call: as it was, and, from the opening on, what is there
when the writing ends after some number of characters. -/
def Moment (cut : DbFile) : Prop :=
  cut = file ∨ ∃ n e, cut = (updateObjects key { writing := some (n, e) } now file new deleted).2

/-- A load at any moment of the call, whenever it is made, returns the map of before the
update or the map of after it. -/
def ReadsBeforeOrAfter : Prop :=
  ∀ cut, Moment key now file new deleted cut → ∀ now',
    loadObjects key {} now' cut = loadObjects key {} now' file ∨
      ∃ d, (updateObjects key {} now file new deleted).1 = .ok d ∧
        loadObjects key {} now' cut = .ok d

end Moments

/-- A text that is not complete is read as an empty database. -/
theorem loadLocalServers_cut (now : ℤ) (d : ServerMap) {p q : List Char}
    (hpq : p ++ q = (storedServers d).render) (hq : q ≠ []) :
    loadLocalServers now (some (String.ofList p)) = .ok .empty := by
  have hcut := Json.loads_prefix (floatFree_storedServers d) hpq hq
  refine (ServerClass.load_eq_ok_iff rfl).mpr ⟨[], ?_, rfl⟩
  rw [serversJson]
  split_ifs
  · rfl
  · rw [hcut]

theorem records_empty_of_load {now : ℤ} {file : DbFile}
    (h : loadLocalServers now file = .ok .empty) : Records file .empty := by
  intro now'
  obtain ⟨d, hd, hk⟩ := loadLocalServers_time h now'
  rwa [OrderedDict.keys_eq_nil.mp hk] at hd

/-! ### What a reader sees -/

theorem mergeServers_eq_empty {d : ServerMap} {new deleted : List LBServerMeta} :
    mergeServers d new deleted = .empty ↔
      ∀ name, name ∈ d.keys ∨ name ∈ new.map (·.serverName) →
        name ∈ deleted.map (·.serverName) := by
  rw [← OrderedDict.keys_eq_nil, List.eq_nil_iff_forall_not_mem]
  refine forall_congr' fun name => ?_
  rw [mergeServers_eq, OrderedDict.mem_keys_eraseAll, OrderedDict.mem_keys_insertAll, List.map_map]
  simp only [Function.comp_def]
  tauto

section Typed

variable {key : PyVal → Option String} {now : ℤ} {file cut : DbFile} {d : ServerMap}
  (new deleted : List LBServerMeta) (hkey : ∀ s, key (.str s) = some s)
include hkey

theorem moment_iff (hd : loadLocalServers now file = .ok d) :
    Moment key now file (new.map LBServerMeta.toObj) (deleted.map LBServerMeta.toObj) cut ↔
      cut = file ∨ ∃ n, cut =
        some (String.ofList ((storedServers (mergeServers d new deleted)).render.take n)) := by
  simp only [Moment, updateObjects_writing hkey hd]
  exact or_congr Iff.rfl (exists_congr fun n => ⟨fun ⟨_, h⟩ => h, fun h => ⟨⟨.osError, ""⟩, h⟩⟩)

/-- At the truncation a reader sees an empty database, which must be one of the two. -/
theorem eq_empty_of_readsBeforeOrAfter
    (h : ReadsBeforeOrAfter key now file (new.map LBServerMeta.toObj)
      (deleted.map LBServerMeta.toObj))
    (hd : loadLocalServers now file = .ok d) :
    d = .empty ∨ mergeServers d new deleted = .empty := by
  have htruncated : loadObjects key {} now (some "") = .ok .empty := rfl
  have hempty : ∀ {d : ServerMap}, (.empty : ObjMap String) = d.mapValues LBServerMeta.toObj →
      d = .empty := fun hd => by
    rw [← OrderedDict.keys_eq_nil, ← OrderedDict.keys_mapValues LBServerMeta.toObj, ← hd]
    rfl
  have hcut : Moment key now file (new.map LBServerMeta.toObj) (deleted.map LBServerMeta.toObj)
      (some "") := (moment_iff new deleted hkey hd).mpr (.inr ⟨0, rfl⟩)
  rcases h _ hcut now with hbefore | ⟨o, ho, hafter⟩
  · rw [loadObjects_typed hkey hd, htruncated, Except.ok.injEq] at hbefore
    exact .inl (hempty hbefore)
  · rw [updateObjects_typed hkey (updateLocalServers_eq hd new deleted), Except.ok.injEq] at ho
    rw [htruncated, Except.ok.injEq, ← ho] at hafter
    exact .inr (hempty hafter)

/-- Before the text is complete, a reader sees an empty database. -/
theorem loadLocalServers_of_moment (hd : loadLocalServers now file = .ok d)
    (hcut : Moment key now file (new.map LBServerMeta.toObj) (deleted.map LBServerMeta.toObj) cut)
    (now' : ℤ) :
    cut = file ∨ loadLocalServers now' cut = .ok .empty ∨
      loadLocalServers now' cut = .ok (mergeServers d new deleted) := by
  rcases (moment_iff new deleted hkey hd).mp hcut with rfl | ⟨n, rfl⟩
  · exact .inl rfl
  have hsplit := List.take_append_drop n (storedServers (mergeServers d new deleted)).render
  by_cases hrest : (storedServers (mergeServers d new deleted)).render.drop n = []
  · -- the whole text has arrived
    rw [hrest, List.append_nil] at hsplit
    right; right
    rw [hsplit]
    exact loadLocalServers_dumps now' ((keyed_of_load hd).mergeServers new deleted)
  · exact .inr (.inl (loadLocalServers_cut now' _ hsplit hrest))

theorem readsBeforeOrAfter_of_eq_empty (hd : loadLocalServers now file = .ok d)
    (h : d = .empty ∨ mergeServers d new deleted = .empty) :
    ReadsBeforeOrAfter key now file (new.map LBServerMeta.toObj)
      (deleted.map LBServerMeta.toObj) := by
  intro cut hmoment now'
  have hafter : (updateObjects key {} now file (new.map LBServerMeta.toObj)
      (deleted.map LBServerMeta.toObj)).1 =
        .ok ((mergeServers d new deleted).mapValues LBServerMeta.toObj) := by
    rw [updateObjects_typed hkey (updateLocalServers_eq hd new deleted)]
  rcases loadLocalServers_of_moment new deleted hkey hd hmoment now' with rfl | hcut | hcut
  · exact .inl rfl
  · rcases h with rfl | hmerged
    · left
      rw [loadObjects_typed hkey hcut, loadObjects_typed hkey (records_empty_of_load hd now')]
    · exact .inr ⟨_, hafter, by rw [loadObjects_typed hkey hcut, hmerged]⟩
  · exact .inr ⟨_, hafter, loadObjects_typed hkey hcut⟩

/-- Whatever the calls do, and wherever they are cut, the records keep their declared types. -/
theorem DeclaredTypes.moment (hfile : DeclaredTypes file)
    (hcut : Moment key now file (new.map LBServerMeta.toObj) (deleted.map LBServerMeta.toObj) cut) :
    DeclaredTypes cut := by
  cases hload : loadObjects key {} now file with
  | error e =>
    rcases hcut with rfl | ⟨n, e', rfl⟩
    · exact hfile
    · rw [updateObjects_of_load_error { writing := some (n, e') } hload]
      exact hfile
  | ok o =>
    obtain ⟨d, hd, -⟩ := (loadObjects_eq_ok_iff hkey hfile).mp hload
    rcases (moment_iff new deleted hkey hd).mp hcut with rfl | ⟨n, rfl⟩
    · exact hfile
    · have hsplit := List.take_append_drop n (storedServers (mergeServers d new deleted)).render
      by_cases hrest : (storedServers (mergeServers d new deleted)).render.drop n = []
      · rw [hrest, List.append_nil] at hsplit
        rw [hsplit]
        exact declaredTypes_dumps _
      · exact declaredTypes_cut hsplit hrest

end Typed

/-- A reader never sees anything else exactly when the database is empty before the call
or the call deletes every recorded and every new name. -/
theorem readsBeforeOrAfter_iff {key : PyVal → Option String} (hkey : ∀ s, key (.str s) = some s)
    (now : ℤ) {file : DbFile} (htyped : DeclaredTypes file) (new deleted : List LBServerMeta) :
    ReadsBeforeOrAfter key now file (new.map LBServerMeta.toObj)
      (deleted.map LBServerMeta.toObj) ↔
      ∀ d, loadObjects key {} now file = .ok d → d = .empty ∨
        ∀ name, name ∈ d.keys ∨ name ∈ new.map (·.serverName) →
          name ∈ deleted.map (·.serverName) := by
  constructor
  · intro h o ho
    obtain ⟨d, hd, rfl⟩ := (loadObjects_eq_ok_iff hkey htyped).mp ho
    rw [OrderedDict.keys_mapValues, ← mergeServers_eq_empty]
    refine (eq_empty_of_readsBeforeOrAfter new deleted hkey h hd).imp_left ?_
    rintro rfl
    rfl
  · intro h
    cases hload : loadObjects key {} now file with
    | error e =>
      -- the call raises before it opens the file
      rintro cut (rfl | ⟨n, e', rfl⟩) now'
      · exact .inl rfl
      · left
        rw [updateObjects_of_load_error { writing := some (n, e') } hload]
    | ok o =>
      obtain ⟨d, hd, rfl⟩ := (loadObjects_eq_ok_iff hkey htyped).mp hload
      refine readsBeforeOrAfter_of_eq_empty new deleted hkey hd ?_
      have hboth := h _ hload
      rw [OrderedDict.keys_mapValues, ← mergeServers_eq_empty] at hboth
      refine hboth.imp_left fun hempty => ?_
      rw [← OrderedDict.keys_eq_nil, ← OrderedDict.keys_mapValues LBServerMeta.toObj, hempty]
      rfl

/-- The database holds one server, and it is deleted: there is no moment at which a reader
misses anything. -/
theorem readsBeforeOrAfter_deleted :
    let key : PyVal → Option String := fun
      | .str s => some s
      | _ => none
    let a : LBServerMeta := { providerName := "ignite", workspace := .parse "/data/ignite/a",
                              serverName := "a", createdTimestamp := 7 }
    let file : DbFile := some (storedServers (.ofPairs [("a", a)])).dumps
    ReadsBeforeOrAfter key 9 file [] [a.toObj] := by
  intro key a file
  have hkey : ∀ s, key (.str s) = some s := fun _ => rfl
  have htyped : DeclaredTypes file := declaredTypes_dumps _
  refine (readsBeforeOrAfter_iff hkey 9 htyped [] [a]).mpr fun d hd => .inr ?_
  obtain ⟨d', hd', rfl⟩ := (loadObjects_eq_ok_iff hkey htyped).mp hd
  have hload : loadLocalServers 9 file = .ok (.ofPairs [("a", a)]) :=
    loadLocalServers_dumps 9 (keyed_empty.insert a)
  rw [hload, Except.ok.injEq] at hd'
  rw [OrderedDict.keys_mapValues, ← hd']
  rintro name (hname | hname)
  · exact hname
  · cases hname

/-- Recording a second server: a reader at the truncation sees no server at all, and if
the process ends there, the update after it stores the second server alone. -/
theorem record_missed_and_lost :
    let key : PyVal → Option String := fun
      | .str s => some s
      | _ => none
    let a : LBServerMeta := { providerName := "ignite", workspace := .parse "/data/ignite/a",
                              serverName := "a", createdTimestamp := 7 }
    let b : LBServerMeta := { a with workspace := .parse "/data/ignite/b", serverName := "b" }
    let file : DbFile := some (storedServers (.ofPairs [("a", a)])).dumps
    ¬ ReadsBeforeOrAfter key 9 file [b.toObj] [] ∧ Moment key 9 file [b.toObj] [] (some "") ∧
      loadObjects key {} 9 (some "") = .ok .empty ∧
      (updateObjects key {} 9 (some "") [b.toObj] []).1 = .ok (.ofPairs [("b", b.toObj)]) := by
  intro key a b file
  have hkey : ∀ s, key (.str s) = some s := fun _ => rfl
  have hload : loadLocalServers 9 file = .ok (.ofPairs [("a", a)]) :=
    loadLocalServers_dumps 9 (keyed_empty.insert a)
  refine ⟨fun h => ?_, (moment_iff [b] [] hkey hload).mpr (.inr ⟨0, rfl⟩),
    rfl, ?_⟩
  · rcases eq_empty_of_readsBeforeOrAfter [b] [] hkey h hload with hd | hd
    · revert hd; decide
    · revert hd; decide
  · have hafter : updateLocalServers 9 (some "") [b] [] = .ok _ := updateLocalServers_eq rfl [b] []
    exact congrArg Prod.fst (updateObjects_typed hkey hafter)

end Lobbyboy.Config
