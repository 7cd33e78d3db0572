import Lobbyboy.Config.ServersDb
import Lobbyboy.Utils.Dataclass

/-! Servers as Python sees them. Nothing checks the types of a record's fields: a provider
may return what it likes, and a load builds a record of whatever the file holds. The typed
records are the objects whose fields are as declared. -/

namespace Lobbyboy.Config

open Foundation Utils

/-- What stands for a server, with its attributes in order. `asdict` takes only instances
of a dataclass apart. -/
structure ServerObj where
  attrs : List (String × PyVal)
  isDataclass : Bool := true

/-! ### `dataclasses.asdict` -/

mutual

/-- Dataclasses inside become dictionaries too; the rest is copied. What cannot even be
copied has no encoding either. -/
def asdictValue : PyVal → PyVal
  | .list xs => .list (asdictItems xs)
  | .dict ms => .dict (asdictMembers ms)
  | .dataclass fields => .dict (asdictMembers fields)
  | v => v

def asdictItems : List PyVal → List PyVal
  | [] => []
  | x :: xs => asdictValue x :: asdictItems xs

def asdictMembers : List (String × PyVal) → List (String × PyVal)
  | [] => []
  | (k, x) :: ms => (k, asdictValue x) :: asdictMembers ms

end

mutual

theorem encodable_asdictValue : ∀ v : PyVal, (asdictValue v).encodable = v.encodable
  | .none | .bool _ | .int _ | .float _ | .str _ | .datetime _ | .date _ | .decimal _ | .path _
  | .other _ => by simp [asdictValue]
  | .list xs => by simp [asdictValue, PyVal.encodable, encodableItems_asdictItems xs]
  | .dict ms => by simp [asdictValue, PyVal.encodable, encodableMembers_asdictMembers ms]
  | .dataclass fields => by
    simp [asdictValue, PyVal.encodable, encodableMembers_asdictMembers fields]

theorem encodableItems_asdictItems : ∀ xs : List PyVal,
    PyVal.encodableItems (asdictItems xs) = PyVal.encodableItems xs
  | [] => by simp [asdictItems]
  | x :: xs => by
    simp [asdictItems, PyVal.encodableItems, encodable_asdictValue x, encodableItems_asdictItems xs]

theorem encodableMembers_asdictMembers : ∀ ms : List (String × PyVal),
    PyVal.encodableMembers (asdictMembers ms) = PyVal.encodableMembers ms
  | [] => by simp [asdictMembers]
  | (k, x) :: ms => by
    simp [asdictMembers, PyVal.encodableMembers, encodable_asdictValue x,
      encodableMembers_asdictMembers ms]

end

namespace ServerObj

def asdict (s : ServerObj) : Except PyExc PyVal :=
  if s.isDataclass then .ok (.dict (asdictMembers s.attrs))
  else .error ⟨.typeError, "asdict() should be called on dataclass instances"⟩

/-- `asdict` and the encoder both accept the object. -/
def encodable (s : ServerObj) : Bool := s.isDataclass && PyVal.encodableMembers s.attrs

end ServerObj

/-- The object of a typed record. -/
def LBServerMeta.toObj (m : LBServerMeta) : ServerObj where
  attrs := [("provider_name", .str m.providerName), ("workspace", .path m.workspace),
    ("server_name", .str m.serverName), ("server_host", .str m.serverHost),
    ("server_user", .str m.serverUser), ("server_port", .int m.serverPort),
    ("created_timestamp", .int m.createdTimestamp),
    ("ssh_extra_args", .list (m.sshExtraArgs.map .str)), ("manage", .bool m.manage)]

theorem asdictItems_str (xs : List String) : asdictItems (xs.map .str) = xs.map .str := by
  induction xs with
  | nil => rfl
  | cons x xs ih => simp [asdictItems, asdictValue, ih]

theorem asdict_toObj (m : LBServerMeta) : m.toObj.asdict = .ok m.asdict := by
  simp [ServerObj.asdict, LBServerMeta.toObj, LBServerMeta.asdict, asdictMembers, asdictValue,
    asdictItems_str]

/-! ### Construction from JSON -/

mutual

/-- What `json.loads` makes of a value. -/
def ofJsonValue : Json → PyVal
  | .null => .none
  | .bool b => .bool b
  | .int i => .int i
  | .float l => .float l
  | .str s => .str s
  | .arr xs => .list (ofJsonItems xs)
  | .obj ms => .dict (ofJsonMembers ms)

def ofJsonItems : List Json → List PyVal
  | [] => []
  | x :: xs => ofJsonValue x :: ofJsonItems xs

def ofJsonMembers : List (String × Json) → List (String × PyVal)
  | [] => []
  | (k, x) :: ms => (k, ofJsonValue x) :: ofJsonMembers ms

end

mutual

theorem encodable_ofJsonValue : ∀ j : Json, (ofJsonValue j).encodable = true
  | .null | .bool _ | .int _ | .float _ | .str _ => by simp [ofJsonValue, PyVal.encodable]
  | .arr xs => by simp [ofJsonValue, PyVal.encodable, encodableItems_ofJsonItems xs]
  | .obj ms => by simp [ofJsonValue, PyVal.encodable, encodableMembers_ofJsonMembers ms]

theorem encodableItems_ofJsonItems : ∀ xs : List Json,
    PyVal.encodableItems (ofJsonItems xs) = true
  | [] => by simp [ofJsonItems, PyVal.encodableItems]
  | x :: xs => by
    simp [ofJsonItems, PyVal.encodableItems, encodable_ofJsonValue x, encodableItems_ofJsonItems xs]

theorem encodableMembers_ofJsonMembers : ∀ ms : List (String × Json),
    PyVal.encodableMembers (ofJsonMembers ms) = true
  | [] => by simp [ofJsonMembers, PyVal.encodableMembers]
  | (k, x) :: ms => by
    simp [ofJsonMembers, PyVal.encodableMembers, encodable_ofJsonValue x,
      encodableMembers_ofJsonMembers ms]

end

/-- The fields of `LBServerMeta` at the time `now`. -/
def serverFields (now : ℤ) : DataclassFields :=
  [("provider_name", none), ("workspace", none), ("server_name", none),
    ("server_host", some (.str "127.0.0.1")), ("server_user", some (.str "root")),
    ("server_port", some (.int 22)), ("created_timestamp", some (.int now)),
    ("ssh_extra_args", some (.list [])), ("manage", some (.bool true))]

/-- `if self.workspace: self.workspace = Path(self.workspace)`. -/
def confirmField (name : String) (v : PyVal) : Except PyExc PyVal :=
  if name = "workspace" ∧ v.truthy then toPath v else .ok v

/-- `__post_init__`. -/
def confirmDataType : List (String × PyVal) → Except PyExc (List (String × PyVal))
  | [] => .ok []
  | (name, v) :: attrs => do return (name, ← confirmField name v) :: (← confirmDataType attrs)

/-- `LBServerMeta(**i)`. -/
def ServerObj.ofKwargs (now : ℤ) (ms : List (String × Json)) : Except PyExc ServerObj := do
  return { attrs := ← confirmDataType (← construct (serverFields now) (ofJsonMembers ms)) }

def ServerObj.ofJson (now : ℤ) : Json → Except PyExc ServerObj
  | .obj ms => ofKwargs now ms
  | _ => .error ⟨.typeError, "argument after ** must be a mapping"⟩

theorem encodable_confirmDataType {attrs attrs' : List (String × PyVal)}
    (h : confirmDataType attrs = .ok attrs') (hattrs : ∀ a ∈ attrs, a.2.encodable = true) :
    ∀ a ∈ attrs', a.2.encodable = true := by
  induction attrs generalizing attrs' with
  | nil =>
    cases h
    simp
  | cons a attrs ih =>
    obtain ⟨name, v⟩ := a
    simp only [confirmDataType, bind_eq_ok] at h
    obtain ⟨v', hv', rest, hrest, h⟩ := h
    cases h
    have hv : v'.encodable = true := by
      unfold confirmField at hv'
      split_ifs at hv'
      · unfold toPath at hv'
        split at hv' <;> cases hv' <;> rfl
      · cases hv'
        exact hattrs _ List.mem_cons_self
    intro a ha
    rcases List.mem_cons.mp ha with rfl | ha
    · exact hv
    · exact ih hrest (fun a ha => hattrs a (List.mem_cons_of_mem _ ha)) a ha

/-- What was built from JSON can be encoded again. -/
theorem encodable_ofJson {now : ℤ} {i : Json} {s : ServerObj} (h : ServerObj.ofJson now i = .ok s) :
    s.encodable = true := by
  cases i with
  | obj ms =>
    simp only [ServerObj.ofJson, ServerObj.ofKwargs, bind_eq_ok] at h
    obtain ⟨attrs, hattrs, attrs', hattrs', h⟩ := h
    cases h
    unfold construct at hattrs
    split at hattrs
    · cases hattrs
    · have hgiven := encodableMembers_iff.mp (encodableMembers_ofJsonMembers ms)
      have hfields := forall_mem_fillFields (P := fun v => v.encodable = true) hattrs hgiven
        (by simp [serverFields, PyVal.encodable, PyVal.encodableItems])
      exact encodableMembers_iff.mpr (encodable_confirmDataType hattrs' hfields)
  | _ => cases h

/-! ### Typed records among the objects -/

theorem keyword?_ofJsonMembers (name : String) (ms : List (String × Json)) :
    keyword? name (ofJsonMembers ms) = (member? name ms).map ofJsonValue := by
  induction ms with
  | nil => rfl
  | cons e ms ih =>
    obtain ⟨k, v⟩ := e
    rw [ofJsonMembers, keyword?, member?, ih]
    cases member? name ms with
    | some v' => rfl
    | none => by_cases hk : k = name <;> simp [hk]

theorem map_fst_ofJsonMembers (ms : List (String × Json)) :
    (ofJsonMembers ms).map Prod.fst = ms.map Prod.fst := by
  induction ms with
  | nil => rfl
  | cons e ms ih =>
    rw [ofJsonMembers, List.map_cons, List.map_cons, ih]

theorem fillField_of_field {α : Type} {ms : List (String × Json)} {name : String}
    {read : Json → Option α} {default : Option α} {a : α} {toVal : α → PyVal}
    (h : field ms name read default = .ok a)
    (hread : ∀ v a, read v = some a → ofJsonValue v = toVal a) :
    fillField (ofJsonMembers ms) name (default.map toVal) = .ok (toVal a) := by
  unfold field at h
  unfold fillField
  rw [keyword?_ofJsonMembers]
  cases hm : member? name ms with
  | some v =>
    rw [hm] at h
    cases hr : read v with
    | some a' =>
      obtain rfl : a' = a := by simpa [hr] using h
      simp [hread v a' hr]
    | none => simp [hr] at h
  | none =>
    rw [hm] at h
    cases default with
    | some a' =>
      obtain rfl : a' = a := by simpa using h
      simp
    | none => simp at h

theorem ofJsonItems_of_readStrs : ∀ {xs : List Json} {ss : List String}, readStrs xs = some ss →
    ofJsonItems xs = ss.map .str
  | [], _, h => by cases h; rfl
  | x :: xs, ss, h => by
    cases hx : readStr x with
    | none => simp [readStrs, hx] at h
    | some s =>
      cases hxs : readStrs xs with
      | none => simp [readStrs, hx, hxs] at h
      | some ss' =>
        obtain rfl : s :: ss' = ss := by simpa [readStrs, hx, hxs] using h
        have htail := ofJsonItems_of_readStrs hxs
        cases x <;> cases hx
        rw [ofJsonItems, ofJsonValue, htail, List.map_cons]

theorem workspace_of_field {ms : List (String × Json)} {name : String} {p : PosixPath}
    (h : field ms name readPath none = .ok p) :
    ∃ v, fillField (ofJsonMembers ms) name none = .ok v ∧
      confirmField "workspace" v = .ok (.path p) := by
  unfold field at h
  unfold fillField
  rw [keyword?_ofJsonMembers]
  cases hm : member? name ms with
  | none => simp [hm] at h
  | some v =>
    cases v with
    | str s =>
      by_cases hs : s = ""
      · simp [hm, readPath, hs] at h
      · obtain rfl : PosixPath.parse s = p := by simpa [hm, readPath, hs] using h
        exact ⟨.str s, rfl, by simp [confirmField, PyVal.truthy, hs, toPath]⟩
    | _ => simp [hm, readPath] at h

theorem ofJsonValue_of_readStr {v : Json} {s : String} (h : readStr v = some s) :
    ofJsonValue v = .str s := by
  cases v <;> cases h
  rfl

theorem ofJsonValue_of_readInt {v : Json} {i : ℤ} (h : readInt v = some i) :
    ofJsonValue v = .int i := by
  cases v <;> cases h
  rfl

theorem ofJsonValue_of_readBool {v : Json} {b : Bool} (h : readBool v = some b) :
    ofJsonValue v = .bool b := by
  cases v <;> cases h
  rfl

theorem ofJsonValue_of_readStrList {v : Json} {ss : List String} (h : readStrList v = some ss) :
    ofJsonValue v = .list (ss.map .str) := by
  cases v with
  | arr xs => rw [ofJsonValue, ofJsonItems_of_readStrs h]
  | _ => cases h

/-- Both constructions know the same names. -/
theorem construct_of_known (now : ℤ) {ms : List (String × Json)}
    (h : (ms.find? fun e => e.1 ∉ fieldNames) = none) :
    construct (serverFields now) (ofJsonMembers ms) =
      fillFields (ofJsonMembers ms) (serverFields now) := by
  have hknown : ((ofJsonMembers ms).find? fun e => e.1 ∉ (serverFields now).map Prod.fst) =
      none := by
    rw [List.find?_eq_none] at h ⊢
    intro e he
    have hmem : e.1 ∈ ms.map Prod.fst := by
      rw [← map_fst_ofJsonMembers]
      exact List.mem_map_of_mem he
    obtain ⟨e', he', hname⟩ := List.mem_map.mp hmem
    rw [← hname]
    exact h e' he'
  rw [construct, hknown]

/-- Where the typed construction succeeds, Python builds the same record. -/
theorem ofKwargs_of_typed {now : ℤ} {ms : List (String × Json)} {m : LBServerMeta}
    (h : LBServerMeta.ofKwargs now ms = .ok m) : ServerObj.ofKwargs now ms = .ok m.toObj := by
  unfold LBServerMeta.ofKwargs at h
  split at h
  · cases h
  · next hknown =>
    simp only [bind_eq_ok] at h
    obtain ⟨a₁, h₁, a₂, h₂, a₃, h₃, a₄, h₄, a₅, h₅, a₆, h₆, a₇, h₇, a₈, h₈, a₉, h₉, hm⟩ := h
    cases hm
    obtain ⟨workspace, hw, hpath⟩ := workspace_of_field h₂
    have hstr : ∀ v s, readStr v = some s → ofJsonValue v = .str s :=
      fun _ _ => ofJsonValue_of_readStr
    have hint : ∀ v i, readInt v = some i → ofJsonValue v = .int i :=
      fun _ _ => ofJsonValue_of_readInt
    have g₁ : fillField (ofJsonMembers ms) "provider_name" none = .ok (.str a₁) :=
      fillField_of_field h₁ hstr
    have g₃ : fillField (ofJsonMembers ms) "server_name" none = .ok (.str a₃) :=
      fillField_of_field h₃ hstr
    have g₄ : fillField (ofJsonMembers ms) "server_host" (some (.str "127.0.0.1")) =
      .ok (.str a₄) := fillField_of_field h₄ hstr
    have g₅ : fillField (ofJsonMembers ms) "server_user" (some (.str "root")) = .ok (.str a₅) :=
      fillField_of_field h₅ hstr
    have g₆ : fillField (ofJsonMembers ms) "server_port" (some (.int 22)) = .ok (.int a₆) :=
      fillField_of_field h₆ hint
    have g₇ : fillField (ofJsonMembers ms) "created_timestamp" (some (.int now)) =
      .ok (.int a₇) := fillField_of_field h₇ hint
    have g₈ : fillField (ofJsonMembers ms) "ssh_extra_args" (some (.list [])) =
      .ok (.list (a₈.map .str)) := fillField_of_field h₈ fun _ _ => ofJsonValue_of_readStrList
    have g₉ : fillField (ofJsonMembers ms) "manage" (some (.bool true)) = .ok (.bool a₉) :=
      fillField_of_field h₉ fun _ _ => ofJsonValue_of_readBool
    have hkeep : ∀ {name v}, name ≠ "workspace" → confirmField name v = .ok v := by
      intro name v hname
      rw [confirmField, if_neg (by simp [hname])]
    rw [ServerObj.ofKwargs, construct_of_known now hknown]
    simp [serverFields, fillFields, g₁, hw, g₃, g₄, g₅, g₆, g₇, g₈, g₉, confirmDataType, hpath,
      hkeep, pure, Except.pure, LBServerMeta.toObj]

theorem ofJson_of_typed {now : ℤ} {i : Json} {m : LBServerMeta}
    (h : LBServerMeta.ofJson now i = .ok m) : ServerObj.ofJson now i = .ok m.toObj := by
  cases i with
  | obj ms => exact ofKwargs_of_typed h
  | _ => cases h

/-! ### Values of the declared types -/

/-- Which JSON values have the declared type of a field. -/
def declaredTypes : List (String × (Json → Bool)) :=
  [("provider_name", fun v => (readStr v).isSome), ("workspace", fun v => (readPath v).isSome),
    ("server_name", fun v => (readStr v).isSome), ("server_host", fun v => (readStr v).isSome),
    ("server_user", fun v => (readStr v).isSome), ("server_port", fun v => (readInt v).isSome),
    ("created_timestamp", fun v => (readInt v).isSome),
    ("ssh_extra_args", fun v => (readStrList v).isSome),
    ("manage", fun v => (readBool v).isSome)]

/-- The values that the record gives have the declared types; names may be missing or
unknown. -/
def TypedRecord : Json → Prop
  | .obj ms => ∀ f ∈ declaredTypes, ∀ v, member? f.1 ms = some v → f.2 v = true
  | _ => True

theorem typedRecord_stored (m : LBServerMeta) : TypedRecord m.stored := by
  simp [TypedRecord, declaredTypes, LBServerMeta.stored, member?, readStr, readPath_str, readInt,
    readStrList, readStrs_str, readBool]

theorem exists_fillField {kwargs attrs : List (String × PyVal)} {fields : DataclassFields}
    (h : fillFields kwargs fields = .ok attrs) :
    ∀ f ∈ fields, ∃ v, fillField kwargs f.1 f.2 = .ok v := by
  induction fields generalizing attrs with
  | nil => simp
  | cons f fields ih =>
    simp only [fillFields, bind_eq_ok] at h
    obtain ⟨v, hv, rest, hrest, -⟩ := h
    exact List.forall_mem_cons.mpr ⟨⟨v, hv⟩, ih hrest⟩

/-- A field that Python fills in has its typed value. -/
theorem exists_field {α : Type} {ms : List (String × Json)} {name : String}
    (read : Json → Option α) (default : Option α) {default' : Option PyVal}
    (h : ∃ v, fillField (ofJsonMembers ms) name default' = .ok v)
    (hdefault : default'.isSome = default.isSome)
    (htyped : ∀ v, member? name ms = some v → (read v).isSome = true) :
    ∃ a, field ms name read default = .ok a := by
  obtain ⟨v, h⟩ := h
  unfold fillField at h
  rw [keyword?_ofJsonMembers] at h
  unfold field
  cases hm : member? name ms with
  | some j =>
    obtain ⟨a, ha⟩ := Option.isSome_iff_exists.mp (htyped j hm)
    exact ⟨a, by simp [ha]⟩
  | none =>
    cases default with
    | some a => exact ⟨a, rfl⟩
    | none =>
      cases default' with
      | some v' => cases hdefault
      | none => simp [hm] at h

/-- Where the values have the declared types, Python builds no other records than the typed
construction. -/
theorem exists_typed_of_ofKwargs {now : ℤ} {ms : List (String × Json)} {s : ServerObj}
    (htyped : TypedRecord (.obj ms)) (h : ServerObj.ofKwargs now ms = .ok s) :
    ∃ m, LBServerMeta.ofKwargs now ms = .ok m := by
  simp only [ServerObj.ofKwargs, bind_eq_ok] at h
  obtain ⟨attrs, hattrs, -⟩ := h
  have hnames : (ms.find? fun e => e.1 ∉ fieldNames) = none := by
    unfold construct at hattrs
    split at hattrs
    · cases hattrs
    · next hknown =>
      rw [List.find?_eq_none] at hknown ⊢
      intro e he
      have hmem : e.1 ∈ (ofJsonMembers ms).map Prod.fst := by
        rw [map_fst_ofJsonMembers]
        exact List.mem_map_of_mem he
      obtain ⟨e', he', hname⟩ := List.mem_map.mp hmem
      rw [← hname]
      exact hknown e' he'
  rw [construct_of_known now hnames] at hattrs
  have hfill := exists_fillField hattrs
  simp only [serverFields, List.forall_mem_cons] at hfill
  obtain ⟨f₁, f₂, f₃, f₄, f₅, f₆, f₇, f₈, f₉, -⟩ := hfill
  simp only [TypedRecord, declaredTypes, List.forall_mem_cons] at htyped
  obtain ⟨t₁, t₂, t₃, t₄, t₅, t₆, t₇, t₈, t₉, -⟩ := htyped
  obtain ⟨a₁, h₁⟩ := exists_field readStr none f₁ rfl t₁
  obtain ⟨a₂, h₂⟩ := exists_field readPath none f₂ rfl t₂
  obtain ⟨a₃, h₃⟩ := exists_field readStr none f₃ rfl t₃
  obtain ⟨a₄, h₄⟩ := exists_field readStr (some "127.0.0.1") f₄ rfl t₄
  obtain ⟨a₅, h₅⟩ := exists_field readStr (some "root") f₅ rfl t₅
  obtain ⟨a₆, h₆⟩ := exists_field readInt (some 22) f₆ rfl t₆
  obtain ⟨a₇, h₇⟩ := exists_field readInt (some now) f₇ rfl t₇
  obtain ⟨a₈, h₈⟩ := exists_field readStrList (some []) f₈ rfl t₈
  obtain ⟨a₉, h₉⟩ := exists_field readBool (some true) f₉ rfl t₉
  refine ⟨⟨a₁, a₂, a₃, a₄, a₅, a₆, a₇, a₈, a₉⟩, ?_⟩
  unfold LBServerMeta.ofKwargs
  rw [hnames]
  simp [h₁, h₂, h₃, h₄, h₅, h₆, h₇, h₈, h₉, pure, Except.pure]

theorem ofJson_eq_ok_iff {now : ℤ} {i : Json} {s : ServerObj} (htyped : TypedRecord i) :
    ServerObj.ofJson now i = .ok s ↔ ∃ m, LBServerMeta.ofJson now i = .ok m ∧ s = m.toObj := by
  constructor
  · intro h
    cases i with
    | obj ms =>
      obtain ⟨m, hm⟩ := exists_typed_of_ofKwargs htyped h
      refine ⟨m, hm, ?_⟩
      have hobj : ServerObj.ofJson now (.obj ms) = .ok m.toObj := ofJson_of_typed hm
      rw [hobj] at h
      cases h
      rfl
    | _ => cases h
  · rintro ⟨m, hm, rfl⟩
    exact ofJson_of_typed hm

end Lobbyboy.Config
