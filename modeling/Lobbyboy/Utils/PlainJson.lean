import Lobbyboy.Config.Types
import Lobbyboy.Utils.Dataclass

/-! `json.dump` without an encoder, of a dictionary of values JSON knows, and
`dict_factory`, which leaves some entries of a dictionary out. What is written is read back
with the same entries, floats included. -/

namespace Lobbyboy.Utils

open Foundation Config

mutual

/-- JSON knows the value; a float has the literal of one. -/
def PyVal.plain : PyVal → Bool
  | .none | .bool _ | .int _ | .str _ => true
  | .float l => Json.isFloatLiteral l
  | .list xs => plainItems xs
  | .dict ms => plainMembers ms
  | _ => false

def PyVal.plainItems : List PyVal → Bool
  | [] => true
  | x :: xs => x.plain && plainItems xs

def PyVal.plainMembers : List (String × PyVal) → Bool
  | [] => true
  | (_, x) :: ms => x.plain && plainMembers ms

end

/-- `json.dumps(obj)`. -/
def jsonDumpsPlain (obj : PyVal) : Except PyExc String :=
  if obj.plain then jsonDumps obj else .error ⟨.typeError, "Object is not JSON serializable"⟩

/-- `dict_factory`, without an encoder. -/
def dictFactory (d : PyDict) (ignoreFields : List String) (ignoreRule : String → Bool) : PyDict :=
  .ofPairs (d.entries.filter fun e => !(ignoreFields.contains e.1 || ignoreRule e.1))

/-- `d[key]`, of decoded JSON. -/
def subscript (key : String) : Json → Except PyExc Json
  | .obj ms =>
    match member? key ms with
    | some v => .ok v
    | none => .error ⟨.keyError, key⟩
  | _ => .error ⟨.typeError, "indices must be integers"⟩

mutual

theorem toJson_of_plain : ∀ {v : PyVal}, v.plain = true →
    ∃ j, toJson v = .ok j ∧ j.written = true
  | .none, _ => ⟨.null, rfl, rfl⟩
  | .bool b, _ => ⟨.bool b, rfl, rfl⟩
  | .int i, _ => ⟨.int i, rfl, rfl⟩
  | .str s, _ => ⟨.str s, rfl, rfl⟩
  | .float l, h => ⟨.float l, rfl, h⟩
  | .list xs, h => by
    obtain ⟨js, hjs, hw⟩ := toJsonItems_of_plain (show PyVal.plainItems xs = true from h)
    exact ⟨.arr js, by rw [toJson, hjs]; rfl, hw⟩
  | .dict ms, h => by
    obtain ⟨js, hjs, hw⟩ := toJsonMembers_of_plain (show PyVal.plainMembers ms = true from h)
    exact ⟨.obj js, by rw [toJson, hjs]; rfl, hw⟩

theorem toJsonItems_of_plain : ∀ {xs : List PyVal}, PyVal.plainItems xs = true →
    ∃ js, toJsonItems xs = .ok js ∧ Json.writtenItems js = true
  | [], _ => ⟨[], rfl, rfl⟩
  | x :: xs, h => by
    obtain ⟨hx, hxs⟩ := Bool.and_eq_true_iff.mp h
    obtain ⟨j, hj, hw⟩ := toJson_of_plain hx
    obtain ⟨js, hjs, hws⟩ := toJsonItems_of_plain hxs
    exact ⟨j :: js, by rw [toJsonItems, hj, hjs]; rfl, Bool.and_eq_true_iff.mpr ⟨hw, hws⟩⟩

theorem toJsonMembers_of_plain : ∀ {ms : List (String × PyVal)}, PyVal.plainMembers ms = true →
    ∃ js, toJsonMembers ms = .ok js ∧ Json.writtenMembers js = true
  | [], _ => ⟨[], rfl, rfl⟩
  | (k, x) :: ms, h => by
    obtain ⟨hx, hms⟩ := Bool.and_eq_true_iff.mp h
    obtain ⟨j, hj, hw⟩ := toJson_of_plain hx
    obtain ⟨js, hjs, hws⟩ := toJsonMembers_of_plain hms
    exact ⟨(k, j) :: js, by rw [toJsonMembers, hj, hjs]; rfl, Bool.and_eq_true_iff.mpr ⟨hw, hws⟩⟩

end

theorem member?_of_toJsonMembers_none {name : String} : ∀ {ms : List (String × PyVal)}
    {js : List (String × Json)}, toJsonMembers ms = .ok js → keyword? name ms = none →
      member? name js = none
  | [], _, hms, _ => by
    cases hms
    rfl
  | (k, x) :: ms, _, hms, h => by
    simp only [toJsonMembers, bind_eq_ok] at hms
    obtain ⟨jx, -, js, hjs, hms⟩ := hms
    cases hms
    rw [keyword?, Option.or_eq_none_iff] at h
    rw [member?, member?_of_toJsonMembers_none hjs h.1]
    split_ifs at h ⊢ with hk
    · exact absurd h.2 (by simp)
    · rfl

/-- An entry that is encoded keeps its place as the last of its name. -/
theorem member?_of_toJsonMembers {name : String} {v : PyVal} {j : Json} (hj : toJson v = .ok j) :
    ∀ {ms : List (String × PyVal)} {js : List (String × Json)}, toJsonMembers ms = .ok js →
      keyword? name ms = some v → member? name js = some j
  | [], _, _, h => by cases h
  | (k, x) :: ms, _, hms, h => by
    simp only [toJsonMembers, bind_eq_ok] at hms
    obtain ⟨jx, hx, js, hjs, hms⟩ := hms
    cases hms
    rcases Option.or_eq_some_iff.mp h with h | ⟨hnone, h⟩
    · rw [member?, member?_of_toJsonMembers hj hjs h]
      rfl
    · split_ifs at h with hk
      cases h
      cases hj.symm.trans hx
      rw [member?, member?_of_toJsonMembers_none hjs hnone, if_pos hk]
      rfl

/-- The text of a dictionary gives each of its entries back. -/
theorem subscript_of_jsonDumpsPlain {d : PyDict} {text name : String} {v : PyVal}
    {j : Json} (h : jsonDumpsPlain (.dict d.entries) = .ok text) (hv : d.get? name = some v)
    (hj : toJson v = .ok j) :
    ∃ data, Json.loads text = some data ∧ subscript name data = .ok j := by
  unfold jsonDumpsPlain at h
  split_ifs at h with hplain
  have hentries : PyVal.plainMembers d.entries = true := hplain
  obtain ⟨js, hjs, hw⟩ := toJsonMembers_of_plain hentries
  have htext : text = (Json.obj js).dumps := by
    rw [jsonDumps, toJson, hjs] at h
    cases h
    rfl
  have hkey : keyword? name d.entries = some v := by
    have hget := get?_insertAll_keyword? name d.entries .empty
    have hsame : (OrderedDict.empty.insertAll d.entries).get? name = d.get? name :=
      congrArg (·.get? name) (OrderedDict.ofPairs_entries d)
    rw [hsame, hv, OrderedDict.get?_empty, Option.or_none] at hget
    exact hget.symm
  refine ⟨.obj js, ?_, ?_⟩
  · rw [htext]
    exact Json.loads_dumps hw
  · rw [subscript, member?_of_toJsonMembers hj hjs hkey]

/-- What is not left out stays. -/
theorem get?_dictFactory {d : PyDict} {ignoreFields : List String}
    {ignoreRule : String → Bool} {name : String} (hfields : name ∉ ignoreFields)
    (hrule : ignoreRule name = false) {v : PyVal} (hv : d.get? name = some v) :
    (dictFactory d ignoreFields ignoreRule).get? name = some v := by
  set es := d.entries.filter fun e => !(ignoreFields.contains e.1 || ignoreRule e.1) with hes
  have hnodup : (es.map Prod.fst).Nodup :=
    d.nodup.sublist (List.filter_sublist.map Prod.fst)
  have hentries : (dictFactory d ignoreFields ignoreRule).entries = es :=
    OrderedDict.entries_insertAll_of_nodup (d := .empty) hnodup
  rw [OrderedDict.get?_eq_some_iff, hentries, hes, List.mem_filter]
  refine ⟨OrderedDict.get?_eq_some_iff.mp hv, ?_⟩
  simp [hfields, hrule]

end Lobbyboy.Utils
