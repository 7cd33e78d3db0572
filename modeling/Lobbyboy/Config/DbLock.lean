import Lobbyboy.Config.DbHistory
import Lobbyboy.Foundation.LockedCell

/-! Updates from many threads. Sessions record the servers they create, the killer and
the session cleanups remove the ones they destroyed, each under
`available_server_db_lock`; the load, the truncating open and the write are separate
steps. -/

namespace Lobbyboy.Config

open Foundation

/-- The two calls of `update_local_servers` in the program. -/
inductive DbUpdate
  | create (m : LBServerMeta)
  | delete (m : LBServerMeta)
  deriving DecidableEq

namespace DbUpdate

def new : DbUpdate → List LBServerMeta
  | .create m => [m]
  | .delete _ => []

def deleted : DbUpdate → List LBServerMeta
  | .create _ => []
  | .delete m => [m]

/-- The uninterrupted call, loading at `now`. -/
def call (u : DbUpdate) (now : ℤ) : DbCall := ⟨now, u.new, u.deleted⟩

end DbUpdate

/-- The steps of `update_local_servers` on the file. -/
def dbFormat : CellFormat DbFile ServerMap DbUpdate ℤ where
  read now file := (loadLocalServers now file).toOption
  blank := some ""
  write u localServers :=
    match serversText (mergeServers localServers u.new u.deleted) with
    | .ok text => some text
    -- the file has been truncated before the encoder raises
    | .error _ => some ""

theorem dbFormat_read (now : ℤ) (file : DbFile) :
    dbFormat.read now file = (loadLocalServers now file).toOption := rfl

theorem dbFormat_write (u : DbUpdate) (d : ServerMap) :
    dbFormat.write u d = some (storedServers (mergeServers d u.new u.deleted)).dumps := by
  simp only [dbFormat, serversText_eq]

/-- Uninterrupted, the steps are the call. -/
theorem serial_dbFormat (file : DbFile) (cs : List (DbUpdate × ℤ)) :
    dbFormat.serial file cs = (runCalls file (cs.map fun c => c.1.call c.2)).toOption := by
  induction cs generalizing file with
  | nil => rfl
  | cons c cs ih =>
    obtain ⟨u, now⟩ := c
    rw [List.map_cons, runCalls, CellFormat.serial, dbFormat_read]
    cases hload : loadLocalServers now file with
    | error e =>
      rw [show updateLocalServers (u.call now).now file (u.call now).new (u.call now).deleted = _
        from updateLocalServers_of_load_error hload u.new u.deleted]
      rfl
    | ok d =>
      rw [show updateLocalServers (u.call now).now file (u.call now).new (u.call now).deleted = _
        from updateLocalServers_eq hload u.new u.deleted]
      simp only [Except.toOption, Option.bind_some, dbFormat_write]
      exact ih _

theorem readable_of_records {file : DbFile} {d : ServerMap} (h : Records file d) :
    dbFormat.Readable file := by
  intro cs file' hserial now
  obtain ⟨file'', hrun, hrec⟩ := h.runCalls (cs.map fun c => c.1.call c.2)
  rw [serial_dbFormat, hrun] at hserial
  cases hserial
  simp [dbFormat_read, hrec now, Except.toOption]

/-! ### What is in the map in the end -/

namespace DbUpdate

def serverName : DbUpdate → String
  | .create m => m.serverName
  | .delete m => m.serverName

def applyTo (d : ServerMap) : DbUpdate → ServerMap
  | .create m => d.insert m.serverName m
  | .delete m => d.erase m.serverName

end DbUpdate

/-- The names under which servers were created. -/
def created : List DbUpdate → List String
  | [] => []
  | .create m :: us => m.serverName :: created us
  | .delete _ :: us => created us

theorem created_append (us vs : List DbUpdate) : created (us ++ vs) = created us ++ created vs := by
  induction us with
  | nil => rfl
  | cons u us ih => cases u <;> simp [created, ih]

theorem mem_created {us : List DbUpdate} {name : String} :
    name ∈ created us ↔ ∃ m, .create m ∈ us ∧ m.serverName = name := by
  induction us with
  | nil => simp [created]
  | cons u us ih => cases u <;> simp [created, ih, or_and_right, exists_or, eq_comm]

theorem foldCalls_call (d : ServerMap) (cs : List (DbUpdate × ℤ)) :
    foldCalls d (cs.map fun c => c.1.call c.2) = (cs.map Prod.fst).foldl DbUpdate.applyTo d := by
  rw [foldCalls, List.foldl_map, List.foldl_map]
  congr
  funext d c
  cases c.1 <;> rfl

/-- Updates of other servers leave a record alone. -/
theorem get?_foldl_applyTo {name : String} : ∀ {us : List DbUpdate} {d : ServerMap},
    (∀ u ∈ us, u.serverName ≠ name) → (us.foldl DbUpdate.applyTo d).get? name = d.get? name
  | [], _, _ => rfl
  | u :: us, d, h => by
    have hu : name ≠ u.serverName := (h u (by simp)).symm
    rw [List.foldl_cons, get?_foldl_applyTo fun u hu => h u (by simp [hu])]
    cases u with
    | create m => exact OrderedDict.get?_insert_of_ne hu
    | delete m => exact OrderedDict.get?_erase_of_ne hu

/-- A name that is absent stays absent until a server of that name is created. -/
theorem not_mem_keys_foldl_applyTo {name : String} : ∀ {us : List DbUpdate} {d : ServerMap},
    name ∉ d.keys → name ∉ created us → name ∉ (us.foldl DbUpdate.applyTo d).keys
  | [], _, hd, _ => hd
  | .create m :: us, d, hd, hc => by
    rw [created, List.mem_cons, not_or] at hc
    rw [List.foldl_cons]
    exact not_mem_keys_foldl_applyTo (by simp [DbUpdate.applyTo, hd, hc.1]) hc.2
  | .delete m :: us, d, hd, hc => by
    rw [List.foldl_cons]
    exact not_mem_keys_foldl_applyTo (by simp [DbUpdate.applyTo, hd]) hc

/-- Updates that neither create nor delete under a name. -/
theorem serverName_ne {us : List DbUpdate} {name : String} (hc : name ∉ created us)
    (hd : ∀ m, .delete m ∈ us → m.serverName ≠ name) : ∀ u ∈ us, u.serverName ≠ name := by
  intro u hu
  cases u with
  | create m => exact fun h => hc (mem_created.mpr ⟨m, hu, h⟩)
  | delete m => exact hd m hu

/-- With distinct names for the recorded and the created servers, a created server that is
not deleted later is recorded, a deleted one is not, and every old record stays that
is not deleted. -/
def NothingLost (d d' : ServerMap) (us : List DbUpdate) : Prop :=
  (d.keys ++ created us).Nodup →
    (∀ before m after, us = before ++ .create m :: after →
      (∀ m', .delete m' ∈ after → m'.serverName ≠ m.serverName) →
        d'.get? m.serverName = some m) ∧
    (∀ before m after, us = before ++ .delete m :: after →
      m.serverName ∈ d.keys ++ created before → d'.get? m.serverName = none) ∧
    ∀ name m, d.get? name = some m → (∀ m', .delete m' ∈ us → m'.serverName ≠ name) →
      d'.get? name = some m

theorem nothingLost (d : ServerMap) (us : List DbUpdate) :
    NothingLost d (us.foldl DbUpdate.applyTo d) us := by
  intro hnodup
  refine ⟨?_, ?_, ?_⟩
  · rintro before m after rfl hdel
    have hc : m.serverName ∉ created after := by
      simp only [created_append, created] at hnodup
      exact (List.nodup_cons.mp (List.nodup_append.mp (List.nodup_append.mp hnodup).2.1).2.1).1
    rw [List.foldl_append, List.foldl_cons, get?_foldl_applyTo (serverName_ne hc hdel)]
    exact OrderedDict.get?_insert_self ..
  · rintro before m after rfl hm
    simp only [created_append, created, ← List.append_assoc] at hnodup
    have hc : m.serverName ∉ created after := fun h =>
      (List.nodup_append.mp hnodup).2.2 _ hm _ h rfl
    rw [List.foldl_append, List.foldl_cons, OrderedDict.get?_eq_none_iff]
    exact not_mem_keys_foldl_applyTo (by simp [DbUpdate.applyTo]) hc
  · intro name m hm hdel
    have hc : name ∉ created us := fun h =>
      (List.nodup_append.mp hnodup).2.2 _ (OrderedDict.mem_keys_iff.mpr ⟨m, hm⟩) _ h rfl
    rw [get?_foldl_applyTo (serverName_ne hc hdel), hm]

/-! ### Any interleaving -/

/-- When no update is in progress, the file is what the completed calls, one after another
in lock order, make of it; and if it was a database to begin with, no call is missing
and no creation and no deletion is lost. -/
theorem no_update_lost {ι : Type} [DecidableEq ι] {file : DbFile}
    {as : List (CellAction ι DbUpdate ℤ)} {s : CellState ι DbUpdate ServerMap ℤ DbFile}
    (hr : run (CellState.step dbFormat) (.start file) as = some s)
    (hidle : ∀ i, s.phase i = .idle) :
    (s.completed.map Prod.fst).Sublist s.order ∧
      runCalls file (s.completed.map fun c => c.1.call c.2) = .ok s.cell ∧
      ∀ d, Records file d → s.order = s.completed.map Prod.fst ∧
        Records s.cell (s.order.foldl DbUpdate.applyTo d) ∧
        NothingLost d (s.order.foldl DbUpdate.applyTo d) s.order := by
  obtain ⟨hsub, hall, hserial⟩ := CellState.serial_of_run hr hidle
  have hcalls : runCalls file (s.completed.map fun c => c.1.call c.2) = .ok s.cell := by
    rw [serial_dbFormat] at hserial
    cases hrun : runCalls file (s.completed.map fun c => c.1.call c.2) with
    | error e => simp [hrun, Except.toOption] at hserial
    | ok file' => rw [hrun] at hserial; cases hserial; rfl
  refine ⟨hsub, hcalls, fun d hd => ?_⟩
  have horder := hall (readable_of_records hd)
  obtain ⟨file', hrun, hrec⟩ := hd.runCalls (s.completed.map fun c => c.1.call c.2)
  obtain rfl : file' = s.cell := by rw [hrun] at hcalls; exact Except.ok.inj hcalls
  rw [foldCalls_call, ← horder] at hrec
  exact ⟨horder, hrec, nothingLost d s.order⟩

/-- Two sessions that record a server each, in an empty database. -/
theorem no_update_lost_two_sessions :
    let a : LBServerMeta := { providerName := "ignite", workspace := .parse "/data/ignite/a",
                              serverName := "a", createdTimestamp := 7 }
    let b : LBServerMeta := { a with workspace := .parse "/data/ignite/b", serverName := "b" }
    ∃ s : CellState (Fin 2) DbUpdate ServerMap ℤ DbFile,
      run (CellState.step dbFormat) (.start none)
        (CellState.update 0 (.create a) 8 ++ CellState.update 1 (.create b) 8) = some s ∧
      Records s.cell (.ofPairs [("a", a), ("b", b)]) := by
  intro a b
  let d : ServerMap := .ofPairs [("a", a)]
  have hread : dbFormat.read 8 (dbFormat.write (.create a) .empty) = some d := by
    rw [dbFormat_write, dbFormat_read]
    exact congrArg Except.toOption (loadLocalServers_dumps 8 (keyed_empty.insert a))
  have hempty : dbFormat.read 8 none = some .empty := rfl
  have hfirst := CellState.run_update (ι := Fin 2) hempty 0 (.create a) [] []
  have hsecond := CellState.run_update (ι := Fin 2) hread 1 (.create b) [.create a] [(.create a, 8)]
  have hrun := (run_append hfirst _).trans hsecond
  obtain ⟨-, -, h⟩ := no_update_lost hrun fun _ => rfl
  exact ⟨_, hrun, (h .empty records_absent).2.1⟩

end Lobbyboy.Config
