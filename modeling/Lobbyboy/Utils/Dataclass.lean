import Lobbyboy.Foundation.OrderedDict
import Lobbyboy.Utils.Encoder

/-! Dataclasses whose values nobody checks: an instance is its fields with whatever they
were given, by keyword or by default. -/

namespace Lobbyboy.Utils

open Foundation

abbrev PyDict := OrderedDict String PyVal

/-- The fields of a class with their defaults; `none` is a field that must be given. -/
abbrev DataclassFields := List (String × Option PyVal)

/-- The last keyword argument of that name. -/
def keyword? (name : String) : List (String × PyVal) → Option PyVal
  | [] => none
  | (k, v) :: kwargs => (keyword? name kwargs).or (if k = name then some v else none)

def fillField (kwargs : List (String × PyVal)) (name : String) (default : Option PyVal) :
    Except PyExc PyVal :=
  match (keyword? name kwargs).or default with
  | some v => .ok v
  | none => .error ⟨.typeError, s!"__init__() missing a required argument: '{name}'"⟩

def fillFields (kwargs : List (String × PyVal)) : DataclassFields →
    Except PyExc (List (String × PyVal))
  | [] => .ok []
  | (name, default) :: fields => do
    return (name, ← fillField kwargs name default) :: (← fillFields kwargs fields)

/-- `cls(**kwargs)`. -/
def construct (fields : DataclassFields) (kwargs : List (String × PyVal)) :
    Except PyExc (List (String × PyVal)) :=
  match kwargs.find? fun e => e.1 ∉ fields.map Prod.fst with
  | some e => .error ⟨.typeError, s!"__init__() got an unexpected keyword argument '{e.1}'"⟩
  | none => fillFields kwargs fields

/-- `Path(v)`. -/
def toPath : PyVal → Except PyExc PyVal
  | .str s => .ok (.path (.parse s))
  | .path p => .ok (.path p)
  | _ => .error ⟨.typeError, "expected str, bytes or os.PathLike object"⟩

/-- `getattr(obj, name)`, if there is one. -/
def attr? (attrs : List (String × PyVal)) (name : String) : Option PyVal :=
  (attrs.find? fun a => a.1 = name).map Prod.snd

theorem mem_of_keyword? {name : String} {v : PyVal} {kwargs : List (String × PyVal)}
    (h : keyword? name kwargs = some v) : (name, v) ∈ kwargs := by
  induction kwargs with
  | nil => cases h
  | cons e kwargs ih =>
    rcases Option.or_eq_some_iff.mp h with h | ⟨-, h⟩
    · exact List.mem_cons_of_mem e (ih h)
    · split_ifs at h with hname
      cases h
      rw [← hname]
      exact List.mem_cons_self

/-- The keyword arguments as a dictionary. -/
theorem get?_insertAll_keyword? (name : String) (kwargs : List (String × PyVal))
    (d : PyDict) :
    (d.insertAll kwargs).get? name = (keyword? name kwargs).or (d.get? name) := by
  induction kwargs generalizing d with
  | nil => rfl
  | cons e kwargs ih =>
    obtain ⟨k, v⟩ := e
    rw [OrderedDict.insertAll_cons, ih, OrderedDict.get?_insert, keyword?]
    cases keyword? name kwargs with
    | some v' => rfl
    | none =>
      by_cases hk : k = name
      · simp [hk]
      · simp [hk, Ne.symm hk]

theorem keyword?_eq_none {name : String} {kwargs : List (String × PyVal)}
    (h : name ∉ kwargs.map Prod.fst) : keyword? name kwargs = none := by
  by_contra hne
  obtain ⟨v, hv⟩ := Option.ne_none_iff_exists'.mp hne
  exact h (List.mem_map_of_mem (mem_of_keyword? hv))

/-- The default of a field, if it is one of the class and has one. -/
def DataclassFields.default? (fields : DataclassFields) (name : String) : Option PyVal :=
  (fields.find? fun f => f.1 = name).bind Prod.snd

theorem names_fillFields {kwargs attrs : List (String × PyVal)} {fields : DataclassFields}
    (h : fillFields kwargs fields = .ok attrs) : attrs.map Prod.fst = fields.map Prod.fst := by
  induction fields generalizing attrs with
  | nil =>
    cases h
    rfl
  | cons f fields ih =>
    simp only [fillFields, bind_eq_ok] at h
    obtain ⟨v, -, rest, hrest, h⟩ := h
    cases h
    rw [List.map_cons, List.map_cons, ih hrest]

theorem attr?_fillFields {kwargs attrs : List (String × PyVal)} {fields : DataclassFields}
    {name : String} (h : fillFields kwargs fields = .ok attrs)
    (hname : name ∈ fields.map Prod.fst) :
    attr? attrs name = (keyword? name kwargs).or (fields.default? name) := by
  induction fields generalizing attrs with
  | nil => cases hname
  | cons f fields ih =>
    obtain ⟨k, default⟩ := f
    simp only [fillFields, bind_eq_ok] at h
    obtain ⟨v, hv, rest, hrest, h⟩ := h
    cases h
    by_cases hk : k = name
    · subst hk
      unfold fillField at hv
      split at hv
      · next v' hor =>
        cases hv
        simp [attr?, DataclassFields.default?, hor]
      · cases hv
    · have hmem : name ∈ fields.map Prod.fst := by
        rcases List.mem_cons.mp hname with rfl | hmem
        · exact absurd rfl hk
        · exact hmem
      have htail := ih hrest hmem
      simpa [attr?, DataclassFields.default?, hk] using htail

/-- An attribute of an instance is what was given for it, or else its default. -/
theorem attr?_construct {kwargs attrs : List (String × PyVal)} {fields : DataclassFields}
    (h : construct fields kwargs = .ok attrs) (name : String) :
    attr? attrs name = (keyword? name kwargs).or (fields.default? name) := by
  unfold construct at h
  split at h
  · cases h
  · next hknown =>
    by_cases hname : name ∈ fields.map Prod.fst
    · exact attr?_fillFields h hname
    · have hgiven : keyword? name kwargs = none := by
        refine keyword?_eq_none fun hmem => ?_
        obtain ⟨e, he, rfl⟩ := List.mem_map.mp hmem
        exact absurd (List.find?_eq_none.mp hknown e he) (by simpa using hname)
      have hdefault : fields.default? name = none := by
        have hnone : fields.find? (fun f => f.1 = name) = none :=
          List.find?_eq_none.mpr fun f hf heq =>
            hname (List.mem_map.mpr ⟨f, hf, by simpa using heq⟩)
        rw [DataclassFields.default?, hnone]
        rfl
      have hattr : attr? attrs name = none := by
        have hnone : attrs.find? (fun a => a.1 = name) = none :=
          List.find?_eq_none.mpr fun a ha heq =>
            hname (names_fillFields h ▸ List.mem_map.mpr ⟨a, ha, by simpa using heq⟩)
        rw [attr?, hnone]
        rfl
      rw [hgiven, hdefault, hattr]
      rfl

/-- A value of an instance was given or is a default. -/
theorem forall_mem_fillFields {kwargs attrs : List (String × PyVal)} {fields : DataclassFields}
    {P : PyVal → Prop} (h : fillFields kwargs fields = .ok attrs)
    (hkwargs : ∀ e ∈ kwargs, P e.2) (hdefaults : ∀ f ∈ fields, ∀ v ∈ f.2, P v) :
    ∀ a ∈ attrs, P a.2 := by
  induction fields generalizing attrs with
  | nil =>
    cases h
    simp
  | cons f fields ih =>
    obtain ⟨name, default⟩ := f
    simp only [fillFields, bind_eq_ok] at h
    obtain ⟨v, hv, rest, hrest, h⟩ := h
    cases h
    have hP : P v := by
      unfold fillField at hv
      split at hv
      · next v' hor =>
        cases hv
        rcases Option.or_eq_some_iff.mp hor with hv | ⟨-, hv⟩
        · exact hkwargs _ (mem_of_keyword? hv)
        · exact hdefaults _ List.mem_cons_self _ hv
      · cases hv
    intro a ha
    rcases List.mem_cons.mp ha with rfl | ha
    · exact hP
    · exact ih hrest (fun f hf => hdefaults f (List.mem_cons_of_mem _ hf)) a ha

end Lobbyboy.Utils
