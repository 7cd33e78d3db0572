import Lobbyboy.Config.DbMoments
import Lobbyboy.World

/-! The recording of one server, however the operating system answers: when it arrives in
the file, and when the file loses what it held. -/

namespace Lobbyboy.Config

open Foundation Utils Prog

section Records

variable (key : PyVal → Option String) (os : FileAnswers) (now : ℤ) (file : DbFile)
  (m : LBServerMeta)

/-- A load finds a server of that provider under that name. -/
def RecordedAs (provider serverName : String) : Prop :=
  ∃ now o s, loadObjects key {} now file = .ok o ∧ o.get? serverName = some s ∧
    attr? s.attrs "provider_name" = some (.str provider)

/-- The file can be loaded and opened, and the text with the new record arrives as a whole. -/
def Arrives : Prop :=
  os.reading = none ∧ os.opening = none ∧ ∃ o text, loadObjects key {} now file = .ok o ∧
    objectsText (o.insert m.serverName m.toObj) = .ok text ∧
    ∀ n e, os.writing = some (n, e) → text.length ≤ n

/-- The file can be loaded and opened, and only a part of the text arrives. -/
def Breaks : Prop :=
  os.reading = none ∧ os.opening = none ∧ ∃ o text, loadObjects key {} now file = .ok o ∧
    objectsText (o.insert m.serverName m.toObj) = .ok text ∧
    ∃ n e, os.writing = some (n, e) ∧ n < text.length

variable {key os now file m} {d : ServerMap}

theorem recordedAs_of_load (hkey : ∀ s, key (.str s) = some s)
    (hload : loadLocalServers now file = .ok (d.insert m.serverName m)) :
    RecordedAs key file m.providerName m.serverName := by
  refine ⟨now, _, m.toObj, loadObjects_typed hkey hload, ?_, rfl⟩
  rw [OrderedDict.mapValues_insert, OrderedDict.get?_insert, if_pos rfl]

theorem not_recordedAs_of_records (hkey : ∀ s, key (.str s) = some s) (h : Records file .empty)
    (provider serverName : String) : ¬ RecordedAs key file provider serverName := by
  rintro ⟨now, o, s, ho, hs, -⟩
  rw [loadObjects_typed hkey (h now)] at ho
  cases ho
  cases hs

theorem objectsText_insert (d : ServerMap) (m : LBServerMeta) :
    objectsText ((d.mapValues LBServerMeta.toObj).insert m.serverName m.toObj) =
      .ok (storedServers (d.insert m.serverName m)).dumps := by
  rw [← OrderedDict.mapValues_insert, objectsText_toObj, serversText_eq]

/-- The record is in what has arrived of the text if that is all of it. -/
theorem recordedAs_take_iff (hkey : ∀ s, key (.str s) = some s)
    (hload : loadLocalServers now file = .ok d) (n : ℕ) :
    RecordedAs key (some (String.ofList ((storedServers (d.insert m.serverName m)).render.take n)))
        m.providerName m.serverName ↔
      (storedServers (d.insert m.serverName m)).dumps.length ≤ n := by
  rw [Json.dumps, String.length_ofList]
  by_cases hn : (storedServers (d.insert m.serverName m)).render.length ≤ n
  · rw [List.take_of_length_le hn]
    exact iff_of_true (recordedAs_of_load hkey
      (loadLocalServers_dumps now ((keyed_of_load hload).insert m))) hn
  · have hrest : (storedServers (d.insert m.serverName m)).render.drop n ≠ [] := by
      rw [Ne, List.drop_eq_nil_iff]
      exact hn
    refine iff_of_false (not_recordedAs_of_records hkey (fun now' => ?_) _ _) hn
    exact loadLocalServers_cut now' _ (List.take_append_drop n _) hrest

section Opened

variable {o : ObjMap String} {text : String} (hreading : os.reading = none)
  (hopening : os.opening = none) (hobjects : loadObjects key {} now file = .ok o)
  (htext : objectsText (o.insert m.serverName m.toObj) = .ok text)
include hreading hopening hobjects htext

theorem arrives_iff :
    Arrives key os now file m ↔ ∀ n e, os.writing = some (n, e) → text.length ≤ n := by
  constructor
  · rintro ⟨-, -, o', text', ho, ht, harrived⟩
    cases hobjects.symm.trans ho
    cases htext.symm.trans ht
    exact harrived
  · exact fun h => ⟨hreading, hopening, o, text, hobjects, htext, h⟩

theorem breaks_iff :
    Breaks key os now file m ↔ ∃ n e, os.writing = some (n, e) ∧ n < text.length := by
  constructor
  · rintro ⟨-, -, o', text', ho, ht, hbroken⟩
    cases hobjects.symm.trans ho
    cases htext.symm.trans ht
    exact hbroken
  · exact fun h => ⟨hreading, hopening, o, text, hobjects, htext, h⟩

end Opened

/-- Once the file is open, the record is there if the whole text has arrived, and otherwise
there is none. -/
theorem recordedAs_opened (hkey : ∀ s, key (.str s) = some s) (hreading : os.reading = none)
    (hopening : os.opening = none) (hload : loadLocalServers now file = .ok d) :
    (RecordedAs key (updateObjects key os now file [m.toObj] []).2 m.providerName m.serverName ↔
      Arrives key os now file m) ∧
    (¬ Arrives key os now file m → Breaks key os now file m) := by
  have hobjects := loadObjects_typed hkey hload
  have htext := objectsText_insert d m
  have hupdate : updateObjects key os now file [m.toObj] [] = _ :=
    updateObjects_of_load hkey hreading hload [m] []
  rw [mergeServers_new] at hupdate
  rw [arrives_iff hreading hopening hobjects htext, breaks_iff hreading hopening hobjects htext]
  constructor
  · cases hwriting : os.writing with
    | none =>
      simp only [hopening, hwriting] at hupdate
      rw [hupdate]
      refine iff_of_true (recordedAs_of_load hkey
        (loadLocalServers_dumps now ((keyed_of_load hload).insert m))) fun n e h => ?_
      cases h
    | some failure =>
      obtain ⟨n, e⟩ := failure
      simp only [hopening, hwriting] at hupdate
      rw [hupdate, recordedAs_take_iff hkey hload]
      simp
  · intro h
    simpa only [not_forall, not_le, exists_prop] using h

/-- The record is there afterwards if it has arrived, or if it was there before and the file
has not been broken. -/
theorem recordedAs_updateObjects_iff (hkey : ∀ s, key (.str s) = some s) (os : FileAnswers)
    (now : ℤ) (htyped : DeclaredTypes file) (m : LBServerMeta) :
    RecordedAs key (updateObjects key os now file [m.toObj] []).2 m.providerName m.serverName ↔
      Arrives key os now file m ∨
        RecordedAs key file m.providerName m.serverName ∧ ¬ Breaks key os now file m := by
  have hsame : (updateObjects key os now file [m.toObj] []).2 = file →
      ¬ Arrives key os now file m → ¬ Breaks key os now file m →
      (RecordedAs key (updateObjects key os now file [m.toObj] []).2 m.providerName m.serverName ↔
        Arrives key os now file m ∨
          RecordedAs key file m.providerName m.serverName ∧ ¬ Breaks key os now file m) := by
    intro hfile harrives hbreaks
    rw [hfile]
    exact ⟨fun h => .inr ⟨h, hbreaks⟩, fun h => (h.resolve_left harrives).1⟩
  cases hreading : os.reading with
  | some e =>
    refine hsame ?_ (fun h => ?_) fun h => ?_
    · rw [updateObjects_of_load_error os (ServerClass.load_refused hreading)]
    · cases hreading.symm.trans h.1
    · cases hreading.symm.trans h.1
  | none =>
    cases hobjects : loadObjects key {} now file with
    | error e =>
      refine hsame ?_ ?_ ?_
      · rw [updateObjects_of_load_error os ((ServerClass.load_of_reading hreading).trans hobjects)]
      · rintro ⟨-, -, o, text, ho, -⟩
        cases hobjects.symm.trans ho
      · rintro ⟨-, -, o, text, ho, -⟩
        cases hobjects.symm.trans ho
    | ok o =>
      obtain ⟨d, hload, rfl⟩ := (loadObjects_eq_ok_iff hkey htyped).mp hobjects
      cases hopening : os.opening with
      | some e =>
        have hupdate : updateObjects key os now file [m.toObj] [] = _ :=
          updateObjects_of_load hkey hreading hload [m] []
        rw [hopening] at hupdate
        refine hsame (congrArg Prod.snd hupdate) (fun h => ?_) fun h => ?_
        · cases hopening.symm.trans h.2.1
        · cases hopening.symm.trans h.2.1
      | none =>
        obtain ⟨hiff, hbreaks⟩ := recordedAs_opened (m := m) hkey hreading hopening hload
        rw [hiff]
        exact ⟨.inl, fun h => by_contra fun harrives =>
          harrives (h.resolve_right fun hold => hold.2 (hbreaks harrives))⟩

end Records

/-! ### The update of a thread -/

section Update

variable {T : Type} {env : Env T} {key : PyVal → Option String}

/-- On a file with records of the declared types, the update of a thread is `updateObjects`,
however the operating system answers. -/
theorem updateServers_updateObjects (hkey : ∀ s, key (.str s) = some s) (os : FileAnswers)
    (new deleted : List LBServerMeta) (w : World T) (htyped : DeclaredTypes w.db) :
    let r := updateObjects key os (env.time w.tick) w.db (new.map LBServerMeta.toObj)
      (deleted.map LBServerMeta.toObj)
    wp (updateServers env new deleted os)
      (fun _ w' => w' = { w.next with db := r.2 } ∧ ∃ o, r.1 = .ok o)
      (fun _ w' => w' = { w.next with db := r.2 } ∧ ∃ e, r.1 = .error e) w := by
  intro r
  have hsame : SameUpdate ((serverClass (env.time w.tick)).update os w.db new deleted) r :=
    sameUpdate_typed hkey os _ htyped new deleted
  rw [wp_updateServers_os]
  generalize (serverClass (env.time w.tick)).update os w.db new deleted = t, r = r' at hsame ⊢
  cases hsame with
  | raises e e' file => exact ⟨fun d hd => (by cases hd), fun _ _ => ⟨rfl, e', rfl⟩⟩
  | returns d file => exact ⟨fun _ _ => ⟨rfl, _, rfl⟩, fun e he => (by cases he)⟩

end Update

end Lobbyboy.Config
