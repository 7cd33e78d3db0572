import Lobbyboy.Config.Loading
import Lobbyboy.Foundation.Program

/-! Which classes `LBConfig.load` finds for the providers, which modules it imports for that,
and how it fails. What `import_class` finds not to be a class is reported as an invalid
configuration; what the import itself raises is not. -/

namespace Lobbyboy.Config

open Foundation Utils

/-! ### Loading, with the modules that are imported -/

abbrev Loading := EStateM PyExc (List String)

section Program

variable (importModule : Importer)

/-- `importlib.import_module(module_path)`. -/
def importing (modulePath : String) : Loading (String → Option ModuleAttr) := do
  modify (· ++ [modulePath])
  liftExcept (importModule modulePath)

def importClassLogged : PyVal → Loading (Option ModuleAttr)
  | .str clsPath =>
    match splitColons clsPath.toList with
    | [modulePath, clsName] => do
      return (← importing importModule (String.ofList modulePath)) (String.ofList clsName)
    | _ => return none
  | _ => throw ⟨.attributeError, "object has no attribute 'split'"⟩

def confirmProviderLogged (name : String) : PyVal → Loading (Option (ProviderClass × Confirmed))
  | .dict ms =>
    let config := OrderedDict.ofPairs ms
    if ((config.get? "enable").getD (.bool true)).truthy = false then return none
    else do
      match ← importClassLogged importModule ((config.get? "load_module").getD (.str "")) with
      | none | some (.other false) => throw (invalidLoadModule name)
      | some (.other true) => throw ⟨.attributeError, "object has no attribute 'config'"⟩
      | some (.providerClass cls) =>
        return some (cls, ← liftExcept (confirmDcType cls.configFields (.dict ms)))
  | _ => throw ⟨.attributeError, "object has no attribute 'get'"⟩

def confirmProvidersLogged (c : LBConfig) : List (String × PyVal) → Loading LBConfig
  | [] => return c
  | (name, config) :: ps => do
    match ← confirmProviderLogged importModule name config with
    | none => confirmProvidersLogged { c with provider := c.provider.insert name (.raw config) } ps
    | some (cls, config) =>
      confirmProvidersLogged { c with provider := c.provider.insert name config
                                      providerCls := c.providerCls.insert name cls } ps

def LBConfig.loadLogged (raw : PyDict) : Loading LBConfig := do
  let dataDir ← liftExcept (confirmDataDir ((raw.get? "data_dir").getD .none))
  let us ← liftExcept (items ((raw.get? "user").getD (.dict [])))
  let user ← liftExcept (confirmUsers .empty us)
  let ps ← liftExcept (items ((raw.get? "provider").getD (.dict [])))
  let config ← confirmProvidersLogged importModule
    { dataDir := dataDir, user := user, provider := .empty, providerCls := .empty } ps
  liftExcept config.validate
  return config

end Program

/-! ### The two programs -/

/-- The program ends as `x` does, and imports only such modules. -/
def Imports {α : Type} (p : Loading α) (x : Except PyExc α) (P : String → Prop) : Prop :=
  ∀ log, (∀ m ∈ log, P m) → wp p (fun a log' => x = .ok a ∧ ∀ m ∈ log', P m)
    (fun e log' => x = .error e ∧ ∀ m ∈ log', P m) log

namespace Imports

variable {α β : Type} {P : String → Prop}

theorem pure (a : α) : Imports (Pure.pure a) (.ok a) P := fun _ hlog => (wp_pure a).mpr ⟨rfl, hlog⟩

theorem throw (e : PyExc) : Imports (MonadExcept.throw e : Loading α) (.error e) P :=
  fun _ hlog => (wp_throw e).mpr ⟨rfl, hlog⟩

theorem lift (x : Except PyExc α) : Imports (liftExcept x) x P :=
  fun _ hlog => (wp_liftExcept x).mpr ⟨fun _ h => ⟨h, hlog⟩, fun _ h => ⟨h, hlog⟩⟩

theorem bind {p : Loading α} {x : Except PyExc α} {f : α → Loading β} {g : α → Except PyExc β}
    (hp : Imports p x P) (hf : ∀ a, x = .ok a → Imports (f a) (g a) P) :
    Imports (p >>= f) (x >>= g) P := by
  intro log hlog
  rw [wp_bind]
  refine wp_mono (hp log hlog) ?_ ?_
  · rintro a log' ⟨rfl, hlog'⟩
    exact hf a rfl log' hlog'
  · rintro e log' ⟨rfl, hlog'⟩
    exact ⟨rfl, hlog'⟩

theorem importing {importModule : Importer} {modulePath : String} (h : P modulePath) :
    Imports (importing importModule modulePath) (importModule modulePath) P := by
  intro log hlog
  rw [Config.importing, wp_bind, wp_modify]
  refine lift _ _ fun m hm => ?_
  rcases List.mem_append.mp hm with hm | hm
  · exact hlog m hm
  · rw [List.mem_singleton.mp hm]
    exact h

end Imports

/-! ### Sections of providers -/

/-- `config.get("enable", True)`. -/
def isEnabled (ms : List (String × PyVal)) : Bool :=
  (((OrderedDict.ofPairs ms).get? "enable").getD (.bool true)).truthy

/-- `config.get("load_module", "")`. -/
def loadModuleOf (ms : List (String × PyVal)) : PyVal :=
  ((OrderedDict.ofPairs ms).get? "load_module").getD (.str "")

/-- The module and the class that a string names, if it has two parts. -/
def parts? (clsPath : String) : Option (String × String) :=
  match splitColons clsPath.toList with
  | [modulePath, clsName] => some (String.ofList modulePath, String.ofList clsName)
  | _ => none

section Sections

variable (importModule : Importer)

/-- The module can be imported and has such a class. -/
def Resolves (clsPath : String) (cls : ProviderClass) : Prop :=
  ∃ modulePath clsName module, parts? clsPath = some (modulePath, clsName) ∧
    importModule modulePath = .ok module ∧ module clsName = some (.providerClass cls)

/-- The section is disabled, or its class is found and takes its options. -/
inductive Accepted : PyVal → Prop
  | disabled {ms : List (String × PyVal)} (disabled : isEnabled ms = false) : Accepted (.dict ms)
  | enabled {ms : List (String × PyVal)} {clsPath : String} {cls : ProviderClass}
      {attrs : List (String × PyVal)} (enabled : isEnabled ms)
      (loadModule : loadModuleOf ms = .str clsPath) (resolves : Resolves importModule clsPath cls)
      (constructs : construct cls.configFields ms = .ok attrs) : Accepted (.dict ms)

/-- What `import_class` takes for no class: the string has not two parts, or the module can be
imported and has nothing of the name. A module may also raise the exception itself. -/
inductive Rejected : PyVal → Prop
  | format {ms : List (String × PyVal)} {clsPath : String} (enabled : isEnabled ms)
      (loadModule : loadModuleOf ms = .str clsPath) (parts : parts? clsPath = none) :
      Rejected (.dict ms)
  | missing {ms : List (String × PyVal)} {clsPath modulePath clsName : String}
      {module : String → Option ModuleAttr} (enabled : isEnabled ms)
      (loadModule : loadModuleOf ms = .str clsPath)
      (parts : parts? clsPath = some (modulePath, clsName))
      (imported : importModule modulePath = .ok module)
      (attr : module clsName = none ∨ module clsName = some (.other false)) : Rejected (.dict ms)
  | raising {ms : List (String × PyVal)} {clsPath modulePath clsName : String} {e : PyExc}
      (enabled : isEnabled ms) (loadModule : loadModuleOf ms = .str clsPath)
      (parts : parts? clsPath = some (modulePath, clsName))
      (raises : importModule modulePath = .error e) (kind : e.kind = .invalidConfigException) :
      Rejected (.dict ms)

end Sections

/-- It raises an `InvalidConfigException`. -/
def Invalid {α : Type} (x : Except PyExc α) : Prop :=
  ∃ e, x = .error e ∧ e.kind = .invalidConfigException

theorem invalid_bind_iff {α β : Type} {x : Except PyExc α} {f : α → Except PyExc β} :
    Invalid (x >>= f) ↔ Invalid x ∨ ∃ a, x = .ok a ∧ Invalid (f a) := by
  cases x with
  | error e => simp [Invalid, bind, Except.bind]
  | ok a => simp [Invalid]

theorem invalid_map_iff {α β : Type} {x : Except PyExc α} {f : α → β} :
    Invalid (x.map f) ↔ Invalid x := by
  cases x <;> simp [Invalid, Except.map]

theorem not_invalid_ok {α : Type} {a : α} : ¬ Invalid (.ok a : Except PyExc α) := nofun

section Provider

variable {importModule : Importer} {clsPath modulePath clsName name : String}
  {ms : List (String × PyVal)}

theorem importClass_str (importModule : Importer) (clsPath : String) :
    importClass importModule (.str clsPath) =
      (parts? clsPath).elim (.ok none) fun p => (importModule p.1).map (· p.2) := by
  rcases hsplit : splitColons clsPath.toList with _ | ⟨m, _ | ⟨c, _ | ⟨d, ds⟩⟩⟩
  all_goals simp only [importClass, parts?, hsplit, Option.elim_none, Option.elim_some]
  cases importModule (String.ofList m) <;> rfl

theorem importClass_of_parts (h : parts? clsPath = some (modulePath, clsName)) :
    importClass importModule (.str clsPath) = (importModule modulePath).map (· clsName) := by
  rw [importClass_str, h]
  rfl

theorem importClass_of_format (h : parts? clsPath = none) :
    importClass importModule (.str clsPath) = .ok none := by
  rw [importClass_str, h]
  rfl

theorem confirmProvider_disabled (h : isEnabled ms = false) :
    confirmProvider importModule name (.dict ms) = .ok none := by
  rw [confirmProvider, if_pos]
  exact h

theorem importClass_eq_ok_iff {v : PyVal} {found : Option ModuleAttr} :
    importClass importModule v = .ok found ↔ ∃ clsPath, v = .str clsPath ∧
      (parts? clsPath = none ∧ found = none ∨ ∃ modulePath clsName module,
        parts? clsPath = some (modulePath, clsName) ∧ importModule modulePath = .ok module ∧
          found = module clsName) := by
  cases v with
  | str clsPath =>
    cases hparts : parts? clsPath with
    | none => simp [importClass_of_format hparts, hparts, eq_comm]
    | some p =>
      obtain ⟨m, c⟩ := p
      rw [importClass_of_parts hparts]
      cases hm : importModule m <;> simp [hparts, hm, Except.map, eq_comm]
  | _ => simp [importClass]

theorem invalid_importClass_iff {v : PyVal} :
    Invalid (importClass importModule v) ↔ ∃ clsPath modulePath clsName e, v = .str clsPath ∧
      parts? clsPath = some (modulePath, clsName) ∧ importModule modulePath = .error e ∧
        e.kind = .invalidConfigException := by
  cases v with
  | str clsPath =>
    cases hparts : parts? clsPath with
    | none => simp [importClass_of_format hparts, hparts, not_invalid_ok]
    | some p =>
      obtain ⟨m, c⟩ := p
      rw [importClass_of_parts hparts]
      cases hm : importModule m <;> simp [hparts, hm, Except.map, Invalid]
  | _ => simp [importClass, Invalid]

/-- What is done with the class that was found. -/
def useFound (name : String) (ms : List (String × PyVal)) :
    Option ModuleAttr → Except PyExc (Option (ProviderClass × Confirmed))
  | none | some (.other false) => .error (invalidLoadModule name)
  | some (.other true) => .error ⟨.attributeError, "object has no attribute 'config'"⟩
  | some (.providerClass cls) =>
    (confirmDcType cls.configFields (.dict ms)).map fun config => some (cls, config)

theorem confirmProvider_enabled (h : isEnabled ms) :
    confirmProvider importModule name (.dict ms) =
      importClass importModule (loadModuleOf ms) >>= useFound name ms := by
  rw [confirmProvider, if_neg]
  · refine congrArg _ (funext fun found => ?_)
    rcases found with _ | ⟨_ | _ | _⟩ <;> rfl
  · rw [← Bool.not_eq_true, not_not]
    exact h

theorem not_invalid_error {α : Type} {e : PyExc} (h : e.kind ≠ .invalidConfigException) :
    ¬ Invalid (.error e : Except PyExc α) := by
  rintro ⟨e', he, hkind⟩
  cases he
  exact h hkind

theorem not_invalid_fillFields {fields : DataclassFields} {kwargs : List (String × PyVal)} :
    ¬ Invalid (fillFields kwargs fields) := by
  induction fields with
  | nil => exact not_invalid_ok
  | cons f fields ih =>
    obtain ⟨k, default⟩ := f
    rw [fillFields, invalid_bind_iff, fillField]
    rintro (hfield | ⟨v, -, hrest⟩)
    · split at hfield
      · exact not_invalid_ok hfield
      · exact not_invalid_error (by simp) hfield
    · rw [invalid_bind_iff] at hrest
      rcases hrest with hrest | ⟨rest, -, hrest⟩
      · exact ih hrest
      · exact not_invalid_ok hrest

theorem not_invalid_confirmDcType {fields : DataclassFields} {v : PyVal} :
    ¬ Invalid (confirmDcType fields v) := by
  cases v with
  | dict ms =>
    rw [confirmDcType, invalid_bind_iff, construct]
    rintro (hconstruct | ⟨attrs, -, hattrs⟩)
    · split at hconstruct
      · exact not_invalid_error (by simp) hconstruct
      · exact not_invalid_fillFields hconstruct
    · exact not_invalid_ok hattrs
  | _ => exact not_invalid_ok

theorem confirmDcType_dict_returns_iff {fields : DataclassFields} :
    (∃ config, confirmDcType fields (.dict ms) = .ok config) ↔
      ∃ attrs, construct fields ms = .ok attrs := by
  rw [confirmDcType, bind_returns_iff]
  exact exists_congr fun _ => and_iff_left ⟨_, rfl⟩

theorem invalid_useFound_iff {found : Option ModuleAttr} :
    Invalid (useFound name ms found) ↔ found = none ∨ found = some (.other false) := by
  rcases found with _ | ⟨cls | truthy⟩
  · simp [useFound, Invalid, invalidLoadModule]
  · have hclass : ¬ Invalid (useFound name ms (some (.providerClass cls))) := by
      rw [useFound, invalid_map_iff]
      exact not_invalid_confirmDcType
    simp [hclass]
  · cases truthy <;> simp [useFound, Invalid, invalidLoadModule]

theorem useFound_returns_iff {found : Option ModuleAttr} :
    (∃ r, useFound name ms found = .ok r) ↔ ∃ cls attrs, found = some (.providerClass cls) ∧
      construct cls.configFields ms = .ok attrs := by
  rcases found with _ | ⟨cls | truthy⟩
  · simp [useFound]
  · have hclass : (∃ r, useFound name ms (some (.providerClass cls)) = .ok r) ↔
        ∃ config, confirmDcType cls.configFields (.dict ms) = .ok config := by
      rw [useFound]
      cases confirmDcType cls.configFields (.dict ms) <;> simp [Except.map]
    rw [hclass, confirmDcType_dict_returns_iff]
    simp
  · cases truthy <;> simp [useFound]

theorem invalid_confirmProvider_iff {v : PyVal} :
    Invalid (confirmProvider importModule name v) ↔ Rejected importModule v := by
  cases v with
  | dict ms =>
    cases henabled : isEnabled ms with
    | false =>
      rw [confirmProvider_disabled henabled]
      refine iff_of_false not_invalid_ok fun h => ?_
      cases h with
      | format h | missing h | raising h =>
        rw [henabled] at h
        cases h
    | true =>
      rw [confirmProvider_enabled henabled, invalid_bind_iff, invalid_importClass_iff]
      simp only [invalid_useFound_iff, importClass_eq_ok_iff]
      constructor
      · rintro (⟨clsPath, m, c, e, hload, hparts, hraises, hkind⟩ |
          ⟨found, ⟨clsPath, hload, ⟨hparts, rfl⟩ | ⟨m, c, module, hparts, hmodule, rfl⟩⟩, hnone⟩)
        · exact .raising henabled hload hparts hraises hkind
        · exact .format henabled hload hparts
        · exact .missing henabled hload hparts hmodule hnone
      · intro h
        cases h with
        | format _ hload hparts => exact .inr ⟨none, ⟨_, hload, .inl ⟨hparts, rfl⟩⟩, .inl rfl⟩
        | missing _ hload hparts hmodule hattr =>
          exact .inr ⟨_, ⟨_, hload, .inr ⟨_, _, _, hparts, hmodule, rfl⟩⟩, hattr⟩
        | raising _ hload hparts hraises hkind =>
          exact .inl ⟨_, _, _, _, hload, hparts, hraises, hkind⟩
  | _ => exact iff_of_false (not_invalid_error (by simp)) nofun

theorem confirmProvider_returns_iff {v : PyVal} :
    (∃ r, confirmProvider importModule name v = .ok r) ↔ Accepted importModule v := by
  cases v with
  | dict ms =>
    cases henabled : isEnabled ms with
    | false =>
      rw [confirmProvider_disabled henabled]
      exact iff_of_true ⟨none, rfl⟩ (.disabled henabled)
    | true =>
      rw [confirmProvider_enabled henabled, bind_returns_iff]
      simp only [useFound_returns_iff, importClass_eq_ok_iff]
      constructor
      · rintro ⟨found, ⟨clsPath, hload, ⟨-, rfl⟩ | ⟨m, c, module, hparts, hmodule, rfl⟩⟩,
          cls, attrs, hcls, hattrs⟩
        · cases hcls
        · exact .enabled henabled hload ⟨m, c, module, hparts, hmodule, hcls⟩ hattrs
      · intro h
        cases h with
        | disabled h =>
          rw [henabled] at h
          cases h
        | enabled _ hload hresolves hattrs =>
          obtain ⟨m, c, module, hparts, hmodule, hcls⟩ := hresolves
          exact ⟨_, ⟨_, hload, .inr ⟨m, c, module, hparts, hmodule, rfl⟩⟩, _, _, hcls, hattrs⟩
  | _ => exact iff_of_false nofun nofun

end Provider

/-! ### The loop over the providers -/

/-- What one turn adds. -/
def LBConfig.withProvider (c : LBConfig) (name : String) (v : PyVal) :
    Option (ProviderClass × Confirmed) → LBConfig
  | none => { c with provider := c.provider.insert name (.raw v) }
  | some (cls, config) => { c with provider := c.provider.insert name config
                                   providerCls := c.providerCls.insert name cls }

section Loop

variable {importModule : Importer} {c c' : LBConfig} {ps : List (String × PyVal)}

theorem confirmProviders_cons (name : String) (v : PyVal) :
    confirmProviders importModule c ((name, v) :: ps) =
      confirmProvider importModule name v >>= fun r =>
        confirmProviders importModule (c.withProvider name v r) ps := by
  rw [confirmProviders]
  refine congrArg _ (funext fun r => ?_)
  cases r <;> rfl

theorem confirmProviders_dataDir (h : confirmProviders importModule c ps = .ok c') :
    c'.dataDir = c.dataDir := by
  induction ps generalizing c with
  | nil =>
    cases h
    rfl
  | cons p ps ih =>
    obtain ⟨name, v⟩ := p
    rw [confirmProviders_cons] at h
    obtain ⟨r, -, h⟩ := bind_eq_ok.mp h
    rw [ih h]
    cases r <;> rfl

theorem confirmProviders_returns_iff :
    (∃ c', confirmProviders importModule c ps = .ok c') ↔
      ∀ q ∈ ps, Accepted importModule q.2 := by
  induction ps generalizing c with
  | nil => exact iff_of_true ⟨c, rfl⟩ nofun
  | cons p ps ih =>
    obtain ⟨name, v⟩ := p
    rw [confirmProviders_cons, bind_returns_iff, List.forall_mem_cons]
    simp only [ih]
    rw [exists_and_right, confirmProvider_returns_iff]

/-- The first section that is not accepted is rejected. -/
theorem invalid_confirmProviders_iff :
    Invalid (confirmProviders importModule c ps) ↔ ∃ before p after, ps = before ++ p :: after ∧
      (∀ q ∈ before, Accepted importModule q.2) ∧ Rejected importModule p.2 := by
  induction ps generalizing c with
  | nil => exact iff_of_false not_invalid_ok (by simp)
  | cons p ps ih =>
    obtain ⟨name, v⟩ := p
    rw [confirmProviders_cons, invalid_bind_iff, invalid_confirmProvider_iff]
    simp only [ih]
    rw [exists_and_right, confirmProvider_returns_iff]
    constructor
    · rintro (hrejected | ⟨haccepted, before, p, after, rfl, hbefore, hp⟩)
      · exact ⟨[], _, ps, rfl, nofun, hrejected⟩
      · exact ⟨_ :: before, p, after, rfl, List.forall_mem_cons.mpr ⟨haccepted, hbefore⟩, hp⟩
    · rintro ⟨before, p, after, heq, hbefore, hp⟩
      cases before with
      | nil =>
        cases heq
        exact .inl hp
      | cons q before =>
        obtain ⟨rfl, rfl⟩ := List.cons.inj heq
        obtain ⟨hq, hbefore⟩ := List.forall_mem_cons.mp hbefore
        exact .inr ⟨hq, before, p, after, rfl, hbefore, hp⟩

end Loop

/-! ### `LBConfig.load` -/

/-- The file has no `data_dir`. -/
def DataDirMissing (raw : PyDict) : Prop := (raw.get? "data_dir").getD .none = .none

/-- `Path(data_dir)` can be made, where it is. -/
def DataDirOk (raw : PyDict) : Prop :=
  ((raw.get? "data_dir").getD .none).truthy → ∃ v, toPath ((raw.get? "data_dir").getD .none) = .ok v

/-- What is there under the name, if anything, is a table. -/
def IsTable (raw : PyDict) (name : String) : Prop :=
  ∃ ms, (raw.get? name).getD (.dict []) = .dict ms

/-- The users are tables of options that users have. -/
def UsersOk (raw : PyDict) : Prop :=
  IsTable raw "user" ∧ ∀ p ∈ (table raw "user").entries,
    ∃ config, confirmDcType userFields p.2 = .ok config

/-- What goes wrong first is that a provider has no class, or it is nothing but that there is
no `data_dir`. -/
def FoundFirst (importModule : Importer) (raw : PyDict) : Prop :=
  DataDirOk raw ∧ UsersOk raw ∧ IsTable raw "provider" ∧
    ((∃ before p after, (table raw "provider").entries = before ++ p :: after ∧
        (∀ q ∈ before, Accepted importModule q.2) ∧ Rejected importModule p.2) ∨
      DataDirMissing raw ∧ ∀ q ∈ (table raw "provider").entries, Accepted importModule q.2)

section Load

variable {importModule : Importer} {raw : PyDict}

theorem confirmDataDir_returns_iff :
    (∃ v, confirmDataDir ((raw.get? "data_dir").getD .none) = .ok v) ↔ DataDirOk raw := by
  unfold confirmDataDir DataDirOk
  split_ifs with h
  · simp [h]
  · simp [h]

theorem not_invalid_toPath {v : PyVal} : ¬ Invalid (toPath v) := by
  cases v with
  | str | path => exact not_invalid_ok
  | _ => exact not_invalid_error (by simp)

theorem not_invalid_confirmDataDir {v : PyVal} : ¬ Invalid (confirmDataDir v) := by
  unfold confirmDataDir
  split_ifs
  · exact not_invalid_toPath
  · exact not_invalid_ok

theorem toPath_ne_none {v v' : PyVal} (h : toPath v = .ok v') : v' ≠ .none := by
  cases v with
  | str | path =>
    cases h
    simp
  | _ => cases h

theorem confirmDataDir_none {v v' : PyVal} (h : confirmDataDir v = .ok v') :
    v' = .none ↔ v = .none := by
  unfold confirmDataDir at h
  split_ifs at h with htruthy
  · refine iff_of_false (toPath_ne_none h) ?_
    rintro rfl
    cases htruthy
  · cases h
    rfl

theorem not_invalid_items {v : PyVal} : ¬ Invalid (items v) := by
  cases v with
  | dict ms => exact not_invalid_ok
  | _ => exact not_invalid_error (by simp)

theorem items_eq_ok_iff {name : String} {es : List (String × PyVal)} :
    items ((raw.get? name).getD (.dict [])) = .ok es ↔
      IsTable raw name ∧ (table raw name).entries = es := by
  constructor
  · intro h
    refine ⟨?_, items_table h⟩
    cases hv : (raw.get? name).getD (.dict []) with
    | dict ms => exact ⟨ms, hv⟩
    | _ =>
      rw [hv] at h
      cases h
  · rintro ⟨⟨ms, hms⟩, rfl⟩
    rw [hms, items_table (by rw [hms]; rfl)]
    rfl

theorem not_invalid_confirmUsers {d : OrderedDict String Confirmed} {us : List (String × PyVal)} :
    ¬ Invalid (confirmUsers d us) := by
  induction us generalizing d with
  | nil => exact not_invalid_ok
  | cons u us ih =>
    rw [confirmUsers, invalid_bind_iff]
    rintro (h | ⟨config, -, h⟩)
    · exact not_invalid_confirmDcType h
    · exact ih h

theorem confirmUsers_returns_iff {d : OrderedDict String Confirmed} {us : List (String × PyVal)} :
    (∃ d', confirmUsers d us = .ok d') ↔
      ∀ p ∈ us, ∃ config, confirmDcType userFields p.2 = .ok config := by
  induction us generalizing d with
  | nil => exact iff_of_true ⟨d, rfl⟩ nofun
  | cons u us ih =>
    rw [confirmUsers, bind_returns_iff, List.forall_mem_cons]
    simp only [ih]
    exact exists_and_right

theorem invalid_validate_iff {c : LBConfig} : Invalid c.validate ↔ c.dataDir = .none := by
  unfold LBConfig.validate
  split
  · next h => exact iff_of_true ⟨_, rfl, rfl⟩ h
  · next h => exact iff_of_false not_invalid_ok h

theorem invalid_load_iff :
    Invalid (LBConfig.load importModule raw) ↔ FoundFirst importModule raw := by
  have hpure : ∀ c : LBConfig, ¬ Invalid (Pure.pure c : Except PyExc LBConfig) := fun _ =>
    not_invalid_ok
  simp only [LBConfig.load, invalid_bind_iff, not_invalid_confirmDataDir, not_invalid_items,
    not_invalid_confirmUsers, hpure, false_or, and_false, exists_false, or_false, items_eq_ok_iff,
    invalid_confirmProviders_iff, invalid_validate_iff]
  constructor
  · rintro ⟨v, hv, us, ⟨husers, rfl⟩, user, huser, ps, ⟨hproviders, rfl⟩, hfound⟩
    refine ⟨confirmDataDir_returns_iff.mp ⟨v, hv⟩,
      ⟨husers, confirmUsers_returns_iff.mp ⟨user, huser⟩⟩, hproviders, ?_⟩
    rcases hfound with hrejected | ⟨c, hc, hnone⟩
    · exact .inl hrejected
    · rw [confirmProviders_dataDir hc, confirmDataDir_none hv] at hnone
      exact .inr ⟨hnone, confirmProviders_returns_iff.mp ⟨c, hc⟩⟩
  · rintro ⟨hdataDir, ⟨husers, hus⟩, hproviders, hfound⟩
    obtain ⟨v, hv⟩ := confirmDataDir_returns_iff.mpr hdataDir
    obtain ⟨user, huser⟩ := confirmUsers_returns_iff.mpr hus
    refine ⟨v, hv, _, ⟨husers, rfl⟩, user, huser, _, ⟨hproviders, rfl⟩, ?_⟩
    rcases hfound with hrejected | ⟨hnone, haccepted⟩
    · exact .inl hrejected
    · obtain ⟨c, hc⟩ := confirmProviders_returns_iff.mpr haccepted
      refine .inr ⟨c, hc, ?_⟩
      rw [confirmProviders_dataDir hc, confirmDataDir_none hv]
      exact hnone

/-! ### What is claimed of it -/

/-- The class of an enabled section is not found. -/
def Unresolved (importModule : Importer) (v : PyVal) : Prop :=
  ∃ ms clsPath, v = .dict ms ∧ isEnabled ms ∧ loadModuleOf ms = .str clsPath ∧
    ∀ cls, ¬ Resolves importModule clsPath cls

/-- There is no `data_dir`, or an enabled provider has no class. -/
def Bad (importModule : Importer) (raw : PyDict) : Prop :=
  DataDirMissing raw ∨ ∃ p ∈ (table raw "provider").entries, Unresolved importModule p.2

/-- The name is that of an enabled provider. -/
def Enabled (raw : PyDict) (name : String) (ms : List (String × PyVal)) : Prop :=
  (name, .dict ms) ∈ (table raw "provider").entries ∧ isEnabled ms

/-- The module is named by the `load_module` of an enabled provider. -/
def ImportedFor (raw : PyDict) (modulePath : String) : Prop :=
  ∃ name ms clsPath clsName, Enabled raw name ms ∧ loadModuleOf ms = .str clsPath ∧
    parts? clsPath = some (modulePath, clsName)

/-- The classes are those of the enabled providers, each with an instance of its own
configuration, and only their modules were imported. -/
structure Loaded (importModule : Importer) (raw : PyDict) (c : LBConfig) (log : List String) :
    Prop where
  keys : ∀ name, name ∈ c.providerCls.keys ↔ ∃ ms, Enabled raw name ms
  instances : ∀ name cls, c.providerCls.get? name = some cls → ∃ ms clsPath attrs,
    Enabled raw name ms ∧ loadModuleOf ms = .str clsPath ∧ Resolves importModule clsPath cls ∧
      construct cls.configFields ms = .ok attrs ∧ c.provider.get? name = some (.object attrs)
  imports : ∀ modulePath ∈ log, ImportedFor raw modulePath

structure Contract (importModule : Importer) (raw : PyDict) : Prop where
  refused : Bad importModule raw → ∃ e log, LBConfig.loadLogged importModule raw [] = .error e log ∧
    e.kind = .invalidConfigException
  loaded : ∀ c log, LBConfig.loadLogged importModule raw [] = .ok c log →
    Loaded importModule raw c log

theorem importClassLogged_str (importModule : Importer) (clsPath : String) :
    importClassLogged importModule (.str clsPath) = (parts? clsPath).elim (pure none)
      fun p => do return (← importing importModule p.1) p.2 := by
  rcases hsplit : splitColons clsPath.toList with _ | ⟨m, _ | ⟨c, _ | ⟨d, ds⟩⟩⟩
  all_goals simp only [importClassLogged, parts?, hsplit, Option.elim_none, Option.elim_some]

theorem imports_importClassLogged {v : PyVal} {P : String → Prop}
    (h : ∀ clsPath modulePath clsName, v = .str clsPath →
      parts? clsPath = some (modulePath, clsName) → P modulePath) :
    Imports (importClassLogged importModule v) (importClass importModule v) P := by
  cases v with
  | str clsPath =>
    cases hparts : parts? clsPath with
    | none =>
      rw [importClassLogged_str, importClass_str, hparts]
      exact .pure _
    | some p =>
      rw [importClassLogged_str, importClass_str, hparts]
      exact .bind (.importing (h clsPath _ _ rfl hparts)) fun _ _ => .pure _
  | _ => exact .throw _

theorem imports_confirmProviderLogged {name : String} {v : PyVal} {P : String → Prop}
    (h : ∀ ms clsPath modulePath clsName, v = .dict ms → isEnabled ms →
      loadModuleOf ms = .str clsPath → parts? clsPath = some (modulePath, clsName) → P modulePath) :
    Imports (confirmProviderLogged importModule name v) (confirmProvider importModule name v)
      P := by
  cases v with
  | dict ms =>
    simp only [confirmProviderLogged, confirmProvider]
    split_ifs with hdisabled
    · exact .pure _
    · have henabled : isEnabled ms := by
        rw [isEnabled, ← Bool.not_eq_false]
        exact hdisabled
      refine .bind (imports_importClassLogged fun clsPath m c hload hparts =>
        h ms clsPath m c rfl henabled hload hparts) fun found _ => ?_
      rcases found with _ | ⟨cls | truthy⟩
      · exact .throw _
      · exact .bind (.lift _) fun _ _ => .pure _
      · cases truthy
        · exact .throw _
        · exact .throw _
  | _ => exact .throw _

theorem imports_confirmProvidersLogged {c : LBConfig} {ps : List (String × PyVal)}
    (h : ∀ p ∈ ps, p ∈ (table raw "provider").entries) :
    Imports (confirmProvidersLogged importModule c ps) (confirmProviders importModule c ps)
      (ImportedFor raw) := by
  induction ps generalizing c with
  | nil => exact .pure _
  | cons p ps ih =>
    obtain ⟨name, v⟩ := p
    obtain ⟨hp, hps⟩ := List.forall_mem_cons.mp h
    rw [confirmProvidersLogged, confirmProviders]
    refine .bind (imports_confirmProviderLogged ?_) fun r _ => ?_
    · rintro ms clsPath m c rfl henabled hload hparts
      exact ⟨name, ms, clsPath, c, ⟨hp, henabled⟩, hload, hparts⟩
    · rcases r with _ | ⟨cls, config⟩
      · exact ih hps
      · exact ih hps

theorem imports_loadLogged (importModule : Importer) (raw : PyDict) :
    Imports (LBConfig.loadLogged importModule raw) (LBConfig.load importModule raw)
      (ImportedFor raw) := by
  rw [LBConfig.loadLogged, LBConfig.load]
  refine .bind (.lift _) fun _ _ => .bind (.lift _) fun _ _ => .bind (.lift _) fun _ _ =>
    .bind (.lift _) fun ps hps => ?_
  refine .bind (imports_confirmProvidersLogged fun p hp => ?_) fun c _ =>
    .bind (.lift _) fun _ _ => .pure _
  rw [items_table hps]
  exact hp

theorem isSome_of_useFound {name : String} {ms : List (String × PyVal)} {found : Option ModuleAttr}
    {r : Option (ProviderClass × Confirmed)} (h : useFound name ms found = .ok r) : r.isSome := by
  rcases found with _ | ⟨cls | truthy⟩
  · cases h
  · rw [useFound] at h
    cases hc : confirmDcType cls.configFields (.dict ms) with
    | error e =>
      rw [hc] at h
      cases h
    | ok config =>
      rw [hc] at h
      cases h
      rfl
  · cases truthy <;> cases h

/-- An enabled section gives a class, a disabled one gives none. -/
theorem isSome_of_confirmProvider {name : String} {v : PyVal}
    {r : Option (ProviderClass × Confirmed)} (h : confirmProvider importModule name v = .ok r) :
    r.isSome ↔ ∃ ms, v = .dict ms ∧ isEnabled ms := by
  cases v with
  | dict ms =>
    cases henabled : isEnabled ms with
    | false =>
      rw [confirmProvider_disabled henabled] at h
      cases h
      simp [henabled]
    | true =>
      rw [confirmProvider_enabled henabled] at h
      obtain ⟨found, -, h⟩ := bind_eq_ok.mp h
      exact iff_of_true (isSome_of_useFound h) ⟨ms, rfl, henabled⟩
  | _ => cases h

theorem resolves_of_confirmProvider {name : String} {ms : List (String × PyVal)}
    {cls : ProviderClass} {config : Confirmed}
    (h : confirmProvider importModule name (.dict ms) = .ok (some (cls, config))) :
    isEnabled ms ∧ ∃ clsPath, loadModuleOf ms = .str clsPath ∧
      Resolves importModule clsPath cls := by
  obtain ⟨ms', heq, henabled⟩ := (isSome_of_confirmProvider h).mp rfl
  cases heq
  refine ⟨henabled, ?_⟩
  rw [confirmProvider_enabled henabled] at h
  obtain ⟨found, hfound, h⟩ := bind_eq_ok.mp h
  obtain ⟨cls', attrs, rfl, hattrs⟩ := useFound_returns_iff.mp ⟨_, h⟩
  obtain rfl : cls' = cls := by
    rw [useFound, confirmDcType, hattrs] at h
    cases h
    rfl
  obtain ⟨clsPath, hload, ⟨-, hnone⟩ | ⟨m, c, module, hparts, hmodule, hcls⟩⟩ :=
    importClass_eq_ok_iff.mp hfound
  · cases hnone
  · exact ⟨clsPath, hload, m, c, module, hparts, hmodule, hcls.symm⟩

theorem mem_keys_confirmProviders {c c' : LBConfig} {ps : List (String × PyVal)} {name : String}
    (h : confirmProviders importModule c ps = .ok c') :
    name ∈ c'.providerCls.keys ↔ name ∈ c.providerCls.keys ∨
      ∃ ms, (name, .dict ms) ∈ ps ∧ isEnabled ms := by
  induction ps generalizing c with
  | nil =>
    cases h
    simp
  | cons p ps ih =>
    obtain ⟨k, v⟩ := p
    rw [confirmProviders_cons] at h
    obtain ⟨r, hr, h⟩ := bind_eq_ok.mp h
    have henabled := isSome_of_confirmProvider hr
    rw [ih h]
    rcases r with _ | ⟨cls, config⟩
    · have hdisabled : ∀ ms, v = .dict ms → ¬ isEnabled ms := fun ms hv hms =>
        Bool.false_ne_true (henabled.mpr ⟨ms, hv, hms⟩)
      refine or_congr Iff.rfl (exists_congr fun ms => and_congr_left fun hms => ?_)
      rw [List.mem_cons, or_iff_right]
      intro heq
      exact hdisabled ms (Prod.mk.inj heq).2.symm hms
    · obtain ⟨ms, rfl, hms⟩ := henabled.mp rfl
      rw [LBConfig.withProvider, OrderedDict.mem_keys_insert]
      constructor
      · rintro ((rfl | hold) | ⟨ms', hmem, hms'⟩)
        · exact .inr ⟨ms, List.mem_cons_self, hms⟩
        · exact .inl hold
        · exact .inr ⟨ms', List.mem_cons_of_mem _ hmem, hms'⟩
      · rintro (hold | ⟨ms', hmem, hms'⟩)
        · exact .inl (.inr hold)
        · rcases List.mem_cons.mp hmem with heq | hmem
          · exact .inl (.inl (Prod.mk.inj heq).1)
          · exact .inr ⟨ms', hmem, hms'⟩

theorem loaded_of_load {c : LBConfig} {log : List String}
    (h : LBConfig.load importModule raw = .ok c) (hlog : ∀ m ∈ log, ImportedFor raw m) :
    Loaded importModule raw c log := by
  simp only [LBConfig.load, bind_eq_ok] at h
  obtain ⟨dataDir, -, us, -, user, -, ps, hps, config, hconfig, -, -, h⟩ := h
  cases h
  have hentries := items_table hps
  refine ⟨fun name => ?_, fun name cls hcls => ?_, hlog⟩
  · rw [mem_keys_confirmProviders hconfig, ← hentries]
    simp [Enabled]
  · obtain ⟨v, config, hmem, hconfirm, hp⟩ := confirmProviders_cls hconfig
      (hentries ▸ (table raw "provider").nodup) rfl hcls
    obtain ⟨ms, attrs, rfl, hattrs, rfl⟩ := confirmProvider_some hconfirm
    obtain ⟨henabled, clsPath, hload, hresolves⟩ := resolves_of_confirmProvider hconfirm
    rw [← hentries] at hmem
    exact ⟨ms, clsPath, attrs, ⟨hmem, henabled⟩, hload, hresolves, hattrs, hp⟩

/-- A file without `data_dir`, or with an enabled provider without a class, is refused as
invalid if and only if this is what goes wrong first; what is loaded is always as it should
be. -/
theorem load_contract_iff (importModule : Importer) (raw : PyDict) :
    Contract importModule raw ↔ (Bad importModule raw → FoundFirst importModule raw) := by
  have himports := imports_loadLogged importModule raw [] nofun
  have hloaded : ∀ c log, LBConfig.loadLogged importModule raw [] = .ok c log →
      Loaded importModule raw c log := by
    intro c log h
    have hc := wp_of_ok himports h
    exact loaded_of_load hc.1 hc.2
  have hrefused : (∃ e log, LBConfig.loadLogged importModule raw [] = .error e log ∧
      e.kind = .invalidConfigException) ↔ FoundFirst importModule raw := by
    rw [← invalid_load_iff]
    constructor
    · rintro ⟨e, log, h, hkind⟩
      exact ⟨e, (wp_of_error himports h).1, hkind⟩
    · rintro ⟨e, h, hkind⟩
      cases hr : LBConfig.loadLogged importModule raw [] with
      | ok c log => cases h.symm.trans (wp_of_ok himports hr).1
      | error e' log =>
        cases h.symm.trans (wp_of_error himports hr).1
        exact ⟨_, log, rfl, hkind⟩
  constructor
  · exact fun h hbad => hrefused.mp (h.refused hbad)
  · exact fun h => ⟨fun hbad => hrefused.mpr (h hbad), hloaded⟩

/-- A module that there is not. -/
theorem load_import_error :
    let importModule : Importer := fun m => .error ⟨.exception, s!"No module named '{m}'"⟩
    let raw : PyDict := .ofPairs [("data_dir", .str "/data"),
      ("provider", .dict [("do", .dict [("load_module", .str "digital_ocean::DigitalOcean")])])]
    ¬ Contract importModule raw := by
  intro importModule raw h
  have hbad : Bad importModule raw := by
    refine .inr ⟨_, List.mem_cons_self, _, "digital_ocean::DigitalOcean", rfl, rfl, rfl, ?_⟩
    rintro cls ⟨modulePath, clsName, module, -, hmodule, -⟩
    cases hmodule
  obtain ⟨e, log, he, hkind⟩ := h.refused hbad
  cases he
  cases hkind

end Load

end Lobbyboy.Config
