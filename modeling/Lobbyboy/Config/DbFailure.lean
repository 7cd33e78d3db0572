import Lobbyboy.Config.ServerObjects

/-! `update_local_servers` when something on the way raises. The records are whatever
Python finds; the operating system may refuse to read, to open or to write. The file is
opened, and with that truncated, before the records are converted and encoded, so an
update that fails after the opening loses what was recorded. -/

namespace Lobbyboy.Config

open Foundation Utils

section Names

/-! ### Names

`key` is a value as the key of a dictionary; `none` is a value that cannot be hashed. -/

variable {κ : Type} (key : PyVal → Option κ)

/-- `server.server_name`, as a key. -/
def nameKey (s : ServerObj) : Except PyExc κ :=
  match attr? s.attrs "server_name" with
  | none => .error ⟨.attributeError, "object has no attribute 'server_name'"⟩
  | some v =>
    match key v with
    | some k => .ok k
    | none => .error ⟨.typeError, "unhashable type"⟩

/-- The object is new, is the last of its name there, and its name is not deleted. -/
def Stays (key : PyVal → Option κ) (new deleted : List ServerObj) (s : ServerObj) : Prop :=
  ∃ before after k, new = before ++ s :: after ∧ nameKey key s = .ok k ∧
    (∀ t ∈ after, nameKey key t ≠ .ok k) ∧ ∀ t ∈ deleted, nameKey key t ≠ .ok k

end Names

/-! ### The text -/

abbrev ObjMap (κ : Type) := OrderedDict κ ServerObj

def asdictAll : List ServerObj → Except PyExc (List PyVal)
  | [] => .ok []
  | s :: ss => do return (← s.asdict) :: (← asdictAll ss)

/-- `json.dumps([asdict(i) for i in local_servers.values()], default=encoder_factory())`. -/
def objectsText {κ : Type} (d : ObjMap κ) : Except PyExc String := do
  jsonDumps (.list (← asdictAll d.values))

theorem asdictAll_eq_ok {ss : List ServerObj} {vs : List PyVal} (h : asdictAll ss = .ok vs) :
    PyVal.encodableItems vs = true ↔ ∀ s ∈ ss, s.encodable = true := by
  induction ss generalizing vs with
  | nil => cases h; simp [PyVal.encodableItems]
  | cons s ss ih =>
    obtain ⟨v, hv, vs', hvs, hcons⟩ : ∃ v, s.asdict = .ok v ∧ ∃ vs', asdictAll ss = .ok vs' ∧
        .ok (v :: vs') = (.ok vs : Except PyExc _) := by
      simpa [asdictAll, bind_eq_ok, pure, Except.pure] using h
    cases hcons
    unfold ServerObj.asdict at hv
    split_ifs at hv with hs
    cases hv
    simp [PyVal.encodableItems, PyVal.encodable, ih hvs, ServerObj.encodable, hs,
      encodableMembers_asdictMembers]

theorem exists_asdictAll {ss : List ServerObj} (h : ∀ s ∈ ss, s.encodable = true) :
    ∃ vs, asdictAll ss = .ok vs := by
  induction ss with
  | nil => exact ⟨[], rfl⟩
  | cons s ss ih =>
    obtain ⟨vs, hvs⟩ := ih fun t ht => h t (List.mem_cons_of_mem s ht)
    have hs : s.isDataclass = true := by
      have := h s List.mem_cons_self
      simp only [ServerObj.encodable, Bool.and_eq_true] at this
      exact this.1
    have hasdict : s.asdict = .ok (.dict (asdictMembers s.attrs)) := by
      rw [ServerObj.asdict, if_pos hs]
    exact ⟨_ :: vs, by rw [asdictAll, hasdict, hvs]; rfl⟩

/-- The text exists exactly when every object can be encoded. -/
theorem objectsText_eq_ok_iff {κ : Type} {d : ObjMap κ} :
    (∃ text, objectsText d = .ok text) ↔ ∀ s ∈ d.values, s.encodable = true := by
  have hdumps : ∀ {vs}, (∃ text, jsonDumps (.list vs) = .ok text) ↔
      PyVal.encodableItems vs = true := by
    intro vs
    have := toJson_eq_ok_iff (.list vs)
    rw [PyVal.encodable] at this
    rw [← this]
    simp [jsonDumps, bind_eq_ok, pure, Except.pure]
  constructor
  · rintro ⟨text, h⟩
    obtain ⟨vs, hvs, htext⟩ := bind_eq_ok.mp h
    exact (asdictAll_eq_ok hvs).mp (hdumps.mp ⟨text, htext⟩)
  · intro h
    obtain ⟨vs, hvs⟩ := exists_asdictAll h
    obtain ⟨text, htext⟩ := hdumps.mpr ((asdictAll_eq_ok hvs).mpr h)
    exact ⟨text, bind_eq_ok.mpr ⟨vs, hvs, htext⟩⟩

/-! ### The program -/

section Update

variable {κ : Type} [DecidableEq κ] (key : PyVal → Option κ) (os : FileAnswers) (now : ℤ)

/-- Records of any types, as Python takes them. -/
def objectClass : ServerClass ServerObj κ where
  ofJson := ServerObj.ofJson now
  name := nameKey key
  text := objectsText

def loadObjects (file : DbFile) : Except PyExc (ObjMap κ) := (objectClass key now).load os file

def mergeObjects (d : ObjMap κ) (new deleted : List ServerObj) : Except PyExc (ObjMap κ) :=
  mergeNamed (nameKey key) d new deleted

/-- The result and the file afterwards. -/
def updateObjects (file : DbFile) (new deleted : List ServerObj) :
    Except PyExc (ObjMap κ) × DbFile :=
  (objectClass key now).update os file new deleted

variable {key os now} {file : DbFile} {new deleted : List ServerObj} {d d' : ObjMap κ}

omit [DecidableEq κ] in
theorem forall_stays_iff {added removed : List (κ × ServerObj)}
    (hadded : keyed (nameKey key) new = .ok added)
    (hremoved : keyed (nameKey key) deleted = .ok removed) {P : ServerObj → Prop} :
    (∀ k s, OrderedDict.LastOf added k s → k ∉ removed.map Prod.fst → P s) ↔
      ∀ s, Stays key new deleted s → P s := by
  obtain ⟨rfl, hnew⟩ := keyed_eq_ok hadded
  obtain ⟨rfl, hdel⟩ := keyed_eq_ok hremoved
  have hnot : ∀ {ps : List (κ × ServerObj)} {k : κ}, (∀ p ∈ ps, nameKey key p.2 = .ok p.1) →
      (k ∉ ps.map Prod.fst ↔ ∀ t ∈ ps.map Prod.snd, nameKey key t ≠ .ok k) := by
    intro ps k hps
    constructor
    · rintro hk t ht hname
      obtain ⟨p, hp, rfl⟩ := List.mem_map.mp ht
      rw [hps p hp, Except.ok.injEq] at hname
      exact hk (List.mem_map.mpr ⟨p, hp, hname⟩)
    · rintro h hk
      obtain ⟨p, hp, rfl⟩ := List.mem_map.mp hk
      exact h p.2 (List.mem_map.mpr ⟨p, hp, rfl⟩) (hps p hp)
  constructor
  · rintro h s ⟨before, after, k, hsplit, hname, hafter, hdeleted⟩
    obtain ⟨b, a, rfl, hb, ha⟩ := List.map_eq_append_iff.mp hsplit
    obtain ⟨⟨k', s'⟩, a, rfl, rfl, rfl⟩ := List.map_eq_cons_iff.mp ha
    have hk : nameKey key s' = .ok k' := hnew (k', s') (by simp)
    cases hk.symm.trans hname
    refine h k s' ⟨b, a, rfl, (hnot fun p hp => hnew p (by simp [hp])).mpr hafter⟩ ?_
    exact (hnot hdel).mpr hdeleted
  · rintro h k s ⟨before, after, rfl, hk⟩ hremoved
    refine h s ⟨before.map Prod.snd, after.map Prod.snd, k, by simp, hnew (k, s) (by simp), ?_, ?_⟩
    · exact (hnot fun p hp => hnew p (by simp [hp])).mp hk
    · exact (hnot hdel).mp hremoved

/-- Whatever was loaded can be written again. -/
theorem encodable_of_load (h : loadObjects key os now file = .ok d) :
    ∀ s ∈ d.values, s.encodable = true := by
  refine ServerClass.load_induction (P := fun d => ∀ s ∈ d.values, s.encodable = true) (by simp)
    (fun {d i server k} hd hserver _ s hs => ?_) h
  obtain ⟨k', hk'⟩ := OrderedDict.mem_values_iff.mp hs
  rw [OrderedDict.get?_insert] at hk'
  split_ifs at hk'
  · cases hk'
    exact encodable_ofJson hserver
  · exact hd s (OrderedDict.mem_values_iff.mpr ⟨k', hk'⟩)

/-- The merged map can be written exactly when the new objects that stay can. -/
theorem objectsText_mergeObjects_iff (hload : loadObjects key os now file = .ok d)
    (hmerge : mergeObjects key d new deleted = .ok d') :
    (∃ text, objectsText d' = .ok text) ↔ ∀ s, Stays key new deleted s → s.encodable = true := by
  simp only [mergeObjects, mergeNamed, bind_eq_ok] at hmerge
  obtain ⟨added, hadded, removed, hremoved, hd'⟩ := hmerge
  cases hd'
  rw [objectsText_eq_ok_iff, OrderedDict.insertAll_ofPairs,
    OrderedDict.forall_mem_values_merge (encodable_of_load hload),
    forall_stays_iff hadded hremoved]

/-- An update that cannot load does not open the file. -/
theorem updateObjects_of_load_error (os : FileAnswers) {e : PyExc}
    (h : loadObjects key os now file = .error e) :
    updateObjects key os now file new deleted = (.error e, file) :=
  ServerClass.update_of_load_error h new deleted

end Update

/-! ### Typed records -/

section Typed

variable {key : PyVal → Option String} {now : ℤ} {file : DbFile} {d : ServerMap}

theorem nameKey_toObj (hkey : ∀ s, key (.str s) = some s) (m : LBServerMeta) :
    nameKey key m.toObj = .ok m.serverName := by
  have hname : attr? m.toObj.attrs "server_name" = some (.str m.serverName) := rfl
  simp only [nameKey, hname, hkey]

theorem asdictAll_toObj (ms : List LBServerMeta) :
    asdictAll (ms.map LBServerMeta.toObj) = .ok (ms.map LBServerMeta.asdict) := by
  induction ms with
  | nil => rfl
  | cons m ms ih => simp [asdictAll, asdict_toObj, ih, pure, Except.pure]

theorem objectsText_toObj (d : ServerMap) :
    objectsText (d.mapValues LBServerMeta.toObj) = serversText d := by
  rw [objectsText, OrderedDict.values_mapValues, asdictAll_toObj, ok_bind, serversText]

theorem keyed_toObj (hkey : ∀ s, key (.str s) = some s) (ms : List LBServerMeta) :
    keyed (nameKey key) (ms.map LBServerMeta.toObj) =
      .ok (ms.map fun m => (m.serverName, m.toObj)) := by
  induction ms with
  | nil => rfl
  | cons m ms ih =>
    rw [List.map_cons, keyed, ih, nameKey_toObj hkey]
    rfl

theorem loadEntries_typed (hkey : ∀ s, key (.str s) = some s) : ∀ {is : List Json}
    {d d' : ServerMap}, (serverClass now).loadEntries d is = .ok d' →
      (objectClass key now).loadEntries (d.mapValues LBServerMeta.toObj) is =
        .ok (d'.mapValues LBServerMeta.toObj)
  | [], _, _, h => by cases h; rfl
  | i :: is, d, d', h => by
    obtain ⟨m, _, hm, ⟨⟩, h⟩ := ServerClass.loadEntries_cons_eq_ok.mp h
    have htail := loadEntries_typed hkey h
    rw [OrderedDict.mapValues_insert] at htail
    exact ServerClass.loadEntries_cons_eq_ok.mpr
      ⟨m.toObj, m.serverName, ofJson_of_typed hm, nameKey_toObj hkey m, htail⟩

theorem loadObjects_typed (hkey : ∀ s, key (.str s) = some s)
    (h : loadLocalServers now file = .ok d) :
    loadObjects key {} now file = .ok (d.mapValues LBServerMeta.toObj) := by
  obtain ⟨is, his, h⟩ := (ServerClass.load_eq_ok_iff rfl).mp h
  exact (ServerClass.load_eq_ok_iff rfl).mpr ⟨is, his, loadEntries_typed hkey h⟩

/-- The records of the file have values of the declared types. A text that is not read is no
JSON: it is what has arrived of the text of a database, or has no escapes, which could stand
for half a surrogate pair and so for what is no character here. -/
structure DeclaredTypes (file : DbFile) : Prop where
  records : ∀ content is, file = some content → Json.loads content = some (.arr is) →
    ∀ i ∈ is, TypedRecord i
  characters : ∀ content, file = some content → Json.loads content = none →
    '\\' ∉ content.toList ∨ ∃ d p q, p ++ q = (storedServers d).render ∧
      content = String.ofList p

theorem DeclaredTypes.items (h : DeclaredTypes file) {is : List Json}
    (his : serversJson file = .ok is) : ∀ i ∈ is, TypedRecord i := by
  have hnil : ∀ {is : List Json}, (.ok [] : Except PyExc (List Json)) = .ok is →
      ∀ i ∈ is, TypedRecord i := by
    intro is h
    cases h
    simp
  unfold serversJson at his
  split at his
  · exact hnil his
  · next content =>
    split_ifs at his
    · exact hnil his
    · split at his
      · exact hnil his
      · next is' hloads =>
        cases his
        exact h.records content _ rfl hloads
      · exact hnil his
      · cases his
      · split_ifs at his
        exact hnil his
      · cases his

/-- What the code has written has them. -/
theorem declaredTypes_dumps (d : ServerMap) :
    DeclaredTypes (some (storedServers d).dumps) := by
  have hloads := Json.loads_dumps (Json.written_of_floatFree (floatFree_storedServers d))
  constructor
  · intro content is hcontent his i hi
    cases hcontent
    rw [hloads, storedServers, Option.some.injEq, Json.arr.injEq] at his
    rw [← his] at hi
    obtain ⟨m, -, rfl⟩ := List.mem_map.mp hi
    exact typedRecord_stored m
  · intro content hcontent hnone
    cases hcontent
    rw [hloads] at hnone
    cases hnone

theorem declaredTypes_cut {p q : List Char} (hpq : p ++ q = (storedServers d).render)
    (hq : q ≠ []) : DeclaredTypes (some (String.ofList p)) := by
  have hnone := Json.loads_prefix (floatFree_storedServers d) hpq hq
  constructor
  · intro content is hcontent his
    cases hcontent
    rw [hnone] at his
    cases his
  · intro content hcontent _
    cases hcontent
    exact .inr ⟨d, p, q, hpq, rfl⟩

theorem exists_typed_of_loadEntries (hkey : ∀ s, key (.str s) = some s) : ∀ {is : List Json}
    {d : ServerMap} {o : ObjMap String}, (∀ i ∈ is, TypedRecord i) →
      (objectClass key now).loadEntries (d.mapValues LBServerMeta.toObj) is = .ok o →
        ∃ d', (serverClass now).loadEntries d is = .ok d'
  | [], d, _, _, _ => ⟨d, rfl⟩
  | i :: is, d, o, htyped, h => by
    obtain ⟨hi, his⟩ := List.forall_mem_cons.mp htyped
    obtain ⟨s, name, hs, hname, h⟩ := ServerClass.loadEntries_cons_eq_ok.mp h
    obtain ⟨m, hm, rfl⟩ := (ofJson_eq_ok_iff hi).mp hs
    cases (nameKey_toObj hkey m).symm.trans hname
    rw [← OrderedDict.mapValues_insert] at h
    obtain ⟨d', hd'⟩ := exists_typed_of_loadEntries hkey his h
    exact ⟨d', ServerClass.loadEntries_cons_eq_ok.mpr ⟨m, _, hm, rfl, hd'⟩⟩

/-- Of such a file Python loads what the typed load does, and otherwise both raise. -/
theorem loadObjects_eq_ok_iff (hkey : ∀ s, key (.str s) = some s) (htyped : DeclaredTypes file)
    {o : ObjMap String} :
    loadObjects key {} now file = .ok o ↔
      ∃ d, loadLocalServers now file = .ok d ∧ o = d.mapValues LBServerMeta.toObj := by
  constructor
  · intro h
    obtain ⟨is, his, hentries⟩ := (ServerClass.load_eq_ok_iff rfl).mp h
    obtain ⟨d, hd⟩ := exists_typed_of_loadEntries (d := .empty) hkey (htyped.items his) hentries
    have hload : loadLocalServers now file = .ok d :=
      (ServerClass.load_eq_ok_iff rfl).mpr ⟨is, his, hd⟩
    refine ⟨d, hload, ?_⟩
    rw [loadObjects_typed hkey hload] at h
    cases h
    rfl
  · rintro ⟨d, hd, rfl⟩
    exact loadObjects_typed hkey hd

theorem mergeObjects_toObj (hkey : ∀ s, key (.str s) = some s) (d : ServerMap)
    (new deleted : List LBServerMeta) :
    mergeObjects key (d.mapValues LBServerMeta.toObj) (new.map LBServerMeta.toObj)
      (deleted.map LBServerMeta.toObj) =
        .ok ((mergeServers d new deleted).mapValues LBServerMeta.toObj) := by
  simp only [mergeObjects, mergeNamed, keyed_toObj hkey, ok_bind,
    OrderedDict.insertAll_ofPairs, mergeServers_eq, OrderedDict.mapValues_eraseAll,
    OrderedDict.mapValues_insertAll, List.map_map]
  rfl

/-- What comes of an update that has loaded typed records. -/
theorem updateObjects_of_load (hkey : ∀ s, key (.str s) = some s) {os : FileAnswers}
    (hreading : os.reading = none) (hload : loadLocalServers now file = .ok d)
    (new deleted : List LBServerMeta) :
    updateObjects key os now file (new.map LBServerMeta.toObj) (deleted.map LBServerMeta.toObj) =
      match os.opening with
      | some e => (.error e, file)
      | none =>
        match os.writing with
        | some (n, e) => (.error e,
            some (String.ofList ((storedServers (mergeServers d new deleted)).render.take n)))
        | none => (.ok ((mergeServers d new deleted).mapValues LBServerMeta.toObj),
            some (storedServers (mergeServers d new deleted)).dumps) := by
  have hload' : (objectClass key now).load os file = .ok (d.mapValues LBServerMeta.toObj) := by
    rw [ServerClass.load_of_reading hreading]
    exact loadObjects_typed hkey hload
  have htext : (objectClass key now).text
      ((mergeServers d new deleted).mapValues LBServerMeta.toObj) =
        .ok (storedServers (mergeServers d new deleted)).dumps :=
    (objectsText_toObj _).trans (serversText_eq _)
  rw [updateObjects, ServerClass.update_of_merge hload' (mergeObjects_toObj hkey d new deleted),
    htext]
  cases os.opening with
  | some e => rfl
  | none =>
    cases os.writing with
    | some failure =>
      obtain ⟨n, e⟩ := failure
      exact congrArg (fun cs => (Except.error e, some (String.ofList (List.take n cs))))
        String.toList_ofList
    | none => rfl

/-- On typed records, with an operating system that refuses nothing, this is the update of
the typed database. -/
theorem updateObjects_typed (hkey : ∀ s, key (.str s) = some s) {new deleted : List LBServerMeta}
    {r : ServerMap × DbFile} (h : updateLocalServers now file new deleted = .ok r) :
    updateObjects key {} now file (new.map LBServerMeta.toObj) (deleted.map LBServerMeta.toObj) =
      (.ok (r.1.mapValues LBServerMeta.toObj), r.2) := by
  cases hload : loadLocalServers now file with
  | error e =>
    rw [updateLocalServers_of_load_error hload] at h
    cases h
  | ok d =>
    rw [updateLocalServers_eq hload, Except.ok.injEq] at h
    rw [← h]
    exact updateObjects_of_load hkey rfl hload new deleted

/-- Both raise, or both return the same records, and they leave the same file. -/
inductive SameUpdate :
    Except PyExc ServerMap × DbFile → Except PyExc (ObjMap String) × DbFile → Prop
  | raises (e e' : PyExc) (file : DbFile) : SameUpdate (.error e, file) (.error e', file)
  | returns (d : ServerMap) (file : DbFile) :
    SameUpdate (.ok d, file) (.ok (d.mapValues LBServerMeta.toObj), file)

/-- On a file with records of the declared types, the two updates do the same, however the
operating system answers. -/
theorem sameUpdate_typed (hkey : ∀ s, key (.str s) = some s) (os : FileAnswers) (now : ℤ)
    (htyped : DeclaredTypes file) (new deleted : List LBServerMeta) :
    SameUpdate ((serverClass now).update os file new deleted)
      (updateObjects key os now file (new.map LBServerMeta.toObj)
        (deleted.map LBServerMeta.toObj)) := by
  have hrefused : ∀ {e e'}, (serverClass now).load os file = .error e →
      loadObjects key os now file = .error e' →
      SameUpdate ((serverClass now).update os file new deleted) (updateObjects key os now file
        (new.map LBServerMeta.toObj) (deleted.map LBServerMeta.toObj)) := by
    intro e e' he he'
    rw [ServerClass.update_of_load_error he, updateObjects_of_load_error os he']
    exact .raises e e' file
  cases hreading : os.reading with
  | some e => exact hrefused (ServerClass.load_refused hreading) (ServerClass.load_refused hreading)
  | none =>
    have hload : (serverClass now).load os file = loadLocalServers now file :=
      ServerClass.load_of_reading hreading
    have hobjects : loadObjects key os now file = loadObjects key {} now file :=
      ServerClass.load_of_reading hreading
    cases hd : loadLocalServers now file with
    | error e =>
      cases ho : loadObjects key {} now file with
      | error e' => exact hrefused (hload.trans hd) (hobjects.trans ho)
      | ok o =>
        obtain ⟨d, hd', -⟩ := (loadObjects_eq_ok_iff hkey htyped).mp ho
        cases hd.symm.trans hd'
    | ok d =>
      rw [updateObjects_of_load hkey hreading hd, ServerClass.update_of_merge (hload.trans hd)
        (merge_serverClass now d new deleted), text_serverClass]
      cases os.opening with
      | some e => exact .raises e e file
      | none =>
        cases os.writing with
        | some failure =>
          simp only [Json.dumps, String.toList_ofList]
          exact .raises failure.2 failure.2 _
        | none => exact .returns _ _

/-- The writing stops after some characters of the text. -/
theorem updateObjects_writing (hkey : ∀ s, key (.str s) = some s)
    (hload : loadLocalServers now file = .ok d) (new deleted : List LBServerMeta) (n : ℕ)
    (e : PyExc) :
    updateObjects key { writing := some (n, e) } now file (new.map LBServerMeta.toObj)
      (deleted.map LBServerMeta.toObj) =
        (.error e,
          some (String.ofList ((storedServers (mergeServers d new deleted)).render.take n))) :=
  updateObjects_of_load hkey rfl hload new deleted

end Typed

section Lost

variable {κ : Type} [DecidableEq κ] (key : PyVal → Option κ) (os : FileAnswers) (now : ℤ)
  (file : DbFile) (new deleted : List ServerObj)

/-! ### When nothing is lost -/

/-- An update that raises leaves the file as it was. -/
def KeepsFileOnRaise : Prop :=
  ∀ e, (updateObjects key os now file new deleted).1 = .error e →
    (updateObjects key os now file new deleted).2 = file

/-- The call gets as far as opening the file: it can be read, every object has a name, and
the opening is not refused. -/
def ReachesOpening (d : ObjMap κ) : Prop :=
  loadObjects key os now file = .ok d ∧ (∀ s ∈ new ++ deleted, ∃ k, nameKey key s = .ok k) ∧
    os.opening = none

/-- Every new object that stays can be encoded and the writing is not refused, unless the
file already held no more than what arrives before the failure. -/
def WritesSafely (d : ObjMap κ) : Prop :=
  ((∃ s, Stays key new deleted s ∧ s.encodable = false) → file = some "") ∧
    ∀ n e, os.writing = some (n, e) → ∀ d' text, mergeObjects key d new deleted = .ok d' →
      objectsText d' = .ok text → file = some (String.ofList (text.toList.take n))

variable {key os now file new deleted} {d : ObjMap κ}

theorem updateObjects_not_opened (h : ∀ d, ¬ ReachesOpening key os now file new deleted d) :
    (updateObjects key os now file new deleted).2 = file := by
  unfold updateObjects ServerClass.update
  split
  · rfl
  · next d' hd' =>
    obtain ⟨d, hload, hmerge⟩ := bind_eq_ok.mp hd'
    cases hopen : os.opening with
    | some e => rfl
    | none => exact absurd ⟨hload, exists_mergeNamed.mp ⟨d', hmerge⟩, hopen⟩ (h d)

/-- The update from the opening on. -/
theorem updateObjects_opened (h : ReachesOpening key os now file new deleted d) :
    ∃ d', mergeObjects key d new deleted = .ok d' ∧
      updateObjects key os now file new deleted =
        match objectsText d' with
        | .error e => (.error e, some "")
        | .ok text =>
          match os.writing with
          | some (n, e) => (.error e, some (String.ofList (text.toList.take n)))
          | none => (.ok d', some text) := by
  obtain ⟨hload, hnames, hopen⟩ := h
  obtain ⟨d', hd'⟩ := exists_mergeNamed.mpr hnames
  have hupdate : updateObjects key os now file new deleted = _ :=
    ServerClass.update_of_merge hload hd'
  rw [hopen] at hupdate
  exact ⟨d', hd', hupdate⟩

theorem keepsFileOnRaise_opened (h : ReachesOpening key os now file new deleted d) :
    KeepsFileOnRaise key os now file new deleted ↔ WritesSafely key os file new deleted d := by
  obtain ⟨d', hmerge, hupdate⟩ := updateObjects_opened h
  have htext := objectsText_mergeObjects_iff h.1 hmerge
  rw [KeepsFileOnRaise, hupdate, WritesSafely]
  cases ht : objectsText d' with
  | error e =>
    have hstays : ∃ s, Stays key new deleted s ∧ s.encodable = false := by
      simpa [ht] using htext.not
    constructor
    · intro h
      refine ⟨fun _ => (h e rfl).symm, fun n e' _ d'' text hd'' htext' => ?_⟩
      cases hmerge.symm.trans hd''
      cases ht.symm.trans htext'
    · exact fun h e' _ => (h.1 hstays).symm
  | ok text =>
    have hstays : ¬ ∃ s, Stays key new deleted s ∧ s.encodable = false := by
      simpa [ht] using htext
    cases hw : os.writing with
    | none => simp [hstays]
    | some p =>
      obtain ⟨n, e⟩ := p
      constructor
      · intro h
        refine ⟨fun hs => absurd hs hstays, fun n' e' hn d'' text' hd'' htext' => ?_⟩
        cases hn
        cases hmerge.symm.trans hd''
        cases ht.symm.trans htext'
        exact (h e rfl).symm
      · exact fun h e' _ => (h.2 n e rfl d' text hmerge ht).symm

/-- An update that raises leaves the file as it was exactly when it raises before the
opening, or does not raise after it, or the file held what had arrived. -/
theorem keepsFileOnRaise_iff (key : PyVal → Option κ) (os : FileAnswers) (now : ℤ) (file : DbFile)
    (new deleted : List ServerObj) :
    KeepsFileOnRaise key os now file new deleted ↔
      ∀ d, ReachesOpening key os now file new deleted d →
        WritesSafely key os file new deleted d := by
  constructor
  · exact fun h d hd => (keepsFileOnRaise_opened hd).mp h
  · intro h
    by_cases hopen : ∃ d, ReachesOpening key os now file new deleted d
    · obtain ⟨d, hd⟩ := hopen
      exact (keepsFileOnRaise_opened hd).mpr (h d hd)
    · rw [not_exists] at hopen
      exact fun e _ => updateObjects_not_opened hopen

/-- A provider hands out a host that is no string: the update raises and the server that was
recorded before is lost. -/
theorem records_lost_on_raise :
    let key : PyVal → Option String := fun
      | .str s => some s
      | _ => none
    let a : LBServerMeta := { providerName := "ignite", workspace := .parse "/data/ignite/a",
                              serverName := "a", createdTimestamp := 7 }
    let b : ServerObj := { attrs := [("provider_name", .str "cloud"),
                                     ("workspace", .path (.parse "/data/cloud/b")),
                                     ("server_name", .str "b"),
                                     ("server_host", .other "IPv4Address('10.0.0.1')"),
                                     ("server_user", .str "root"), ("server_port", .int 22),
                                     ("created_timestamp", .int 9), ("ssh_extra_args", .list []),
                                     ("manage", .bool true)] }
    let file : DbFile := some (storedServers (.ofPairs [("a", a)])).dumps
    ¬ KeepsFileOnRaise key {} 9 file [b] [] ∧
      (∃ e, updateObjects key {} 9 file [b] [] = (.error e, some "")) ∧
      loadLocalServers 9 file = .ok (.ofPairs [("a", a)]) ∧
      loadLocalServers 9 (some "") = .ok .empty := by
  intro key a b file
  have hload : loadLocalServers 9 file = .ok (.ofPairs [("a", a)]) :=
    loadLocalServers_dumps 9 (keyed_empty.insert a)
  have hname : nameKey key b = .ok "b" := rfl
  have hopening : ReachesOpening key {} 9 file [b] []
      ((OrderedDict.ofPairs [("a", a)]).mapValues LBServerMeta.toObj) := by
    refine ⟨loadObjects_typed (fun _ => rfl) hload, ?_, rfl⟩
    intro s hs
    obtain rfl : s = b := by simpa using hs
    exact ⟨"b", hname⟩
  have hstays : Stays key [b] [] b := ⟨[], [], "b", rfl, hname, by simp, by simp⟩
  obtain ⟨d', hmerge, hupdate⟩ := updateObjects_opened hopening
  have hraises : ∃ e, updateObjects key {} 9 file [b] [] = (.error e, some "") := by
    cases ht : objectsText d' with
    | error e => exact ⟨e, by rw [hupdate, ht]⟩
    | ok text =>
      have hb : b.encodable = true :=
        (objectsText_mergeObjects_iff hopening.1 hmerge).mp ⟨text, ht⟩ b hstays
      cases hb
  refine ⟨?_, hraises, hload, rfl⟩
  intro h
  obtain ⟨e, he⟩ := hraises
  have hsame : some "" = file := by
    have := h e (by rw [he])
    rwa [he] at this
  rw [← hsame] at hload
  revert hload
  decide

end Lost

end Lobbyboy.Config
