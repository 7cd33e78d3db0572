import Lobbyboy.Foundation.OrderedDict
import Lobbyboy.Utils.Dataclass

/-! `LBConfig.load`. The parsed file is a dictionary of whatever was written there; the
users and the enabled providers become instances of their classes, by keyword and without
a look at the values. Parsing and importing are not the program's own. -/

namespace Lobbyboy.Config

open Foundation Utils

/-! ### Classes -/

/-- The fields of `LBConfigUser`. -/
def userFields : DataclassFields := [("authorized_keys", some .none), ("password", some .none)]

/-- The fields of `LBConfigProvider`. -/
def providerFields : DataclassFields :=
  [("load_module", some .none), ("enable", some (.bool true)), ("min_life_to_live", some .none),
    ("bill_time_unit", some .none), ("destroy_safe_time", some .none),
    ("server_name_prefix", some .none), ("api_token", some .none),
    ("extra_ssh_keys", some (.list []))]

/-- A class with the fields of its class attribute `config`. -/
structure ProviderClass where
  name : String
  configFields : DataclassFields

/-- What a module has under a name; what is no provider class may be true or false. -/
inductive ModuleAttr where
  | providerClass (cls : ProviderClass)
  | other (truthy : Bool)

/-- `importlib.import_module`, with the attributes of the module. -/
abbrev Importer := String → Except PyExc (String → Option ModuleAttr)

/-- `s.split("::")`. -/
def splitColons : List Char → List (List Char)
  | [] => [[]]
  | [c] => [[c]]
  | c :: d :: cs =>
    if c = ':' ∧ d = ':' then [] :: splitColons cs
    else
      match splitColons (d :: cs) with
      | [] => [[c]]
      | p :: ps => (c :: p) :: ps

/-- `import_class`; `none` is `None`. -/
def importClass (importModule : Importer) : PyVal → Except PyExc (Option ModuleAttr)
  | .str clsPath =>
    match splitColons clsPath.toList with
    | [modulePath, clsName] => do
      return (← importModule (String.ofList modulePath)) (String.ofList clsName)
    | _ => .ok none
  | _ => .error ⟨.attributeError, "object has no attribute 'split'"⟩

/-! ### Values of their classes -/

/-- What `confirm_dc_type` returns: an instance, or the value as it was. -/
inductive Confirmed where
  | object (attrs : List (String × PyVal))
  | raw (v : PyVal)

def confirmDcType (fields : DataclassFields) : PyVal → Except PyExc Confirmed
  | .dict ms => do return .object (← construct fields ms)
  | v => .ok (.raw v)

/-- The attributes of an instance; what is no instance has none of these names. -/
def Confirmed.attr? : Confirmed → String → Option PyVal
  | .object attrs, name => Utils.attr? attrs name
  | .raw _, _ => none

def getattr (config : Confirmed) (name : String) : Except PyExc PyVal :=
  match config.attr? name with
  | some v => .ok v
  | none => .error ⟨.attributeError, s!"object has no attribute '{name}'"⟩

theorem getattr_eq_ok_iff {config : Confirmed} {name : String} {v : PyVal} :
    getattr config name = .ok v ↔ config.attr? name = some v := by
  unfold getattr
  cases config.attr? name <;> simp

structure LBConfig where
  dataDir : PyVal
  user : OrderedDict String Confirmed
  provider : OrderedDict String Confirmed
  providerCls : OrderedDict String ProviderClass

/-- The entries of a value of which only a dictionary has `items`. -/
def items : PyVal → Except PyExc (List (String × PyVal))
  | .dict ms => .ok (OrderedDict.ofPairs ms).entries
  | _ => .error ⟨.attributeError, "object has no attribute 'items'"⟩

def confirmUsers (d : OrderedDict String Confirmed) : List (String × PyVal) →
    Except PyExc (OrderedDict String Confirmed)
  | [] => .ok d
  | (u, config) :: us => do confirmUsers (d.insert u (← confirmDcType userFields config)) us

def invalidLoadModule (name : String) : PyExc :=
  ⟨.invalidConfigException, s!"Invalid `load_module` config for {name}, it must be in format " ++
    "\"module_path::class_name\", please check your config and whether file exists."⟩

variable (importModule : Importer)

/-- One turn of the loop over the providers: a class, unless the provider is disabled. -/
def confirmProvider (name : String) : PyVal → Except PyExc (Option (ProviderClass × Confirmed))
  | .dict ms =>
    let config := OrderedDict.ofPairs ms
    if ((config.get? "enable").getD (.bool true)).truthy = false then .ok none
    else do
      match ← importClass importModule ((config.get? "load_module").getD (.str "")) with
      | none | some (.other false) => throw (invalidLoadModule name)
      | some (.other true) => throw ⟨.attributeError, "object has no attribute 'config'"⟩
      | some (.providerClass cls) => return some (cls, ← confirmDcType cls.configFields (.dict ms))
  | _ => .error ⟨.attributeError, "object has no attribute 'get'"⟩

/-- What is disabled stays as it was written. -/
def confirmProviders (c : LBConfig) : List (String × PyVal) → Except PyExc LBConfig
  | [] => .ok c
  | (name, config) :: ps => do
    match ← confirmProvider importModule name config with
    | none => confirmProviders { c with provider := c.provider.insert name (.raw config) } ps
    | some (cls, config) =>
      confirmProviders { c with provider := c.provider.insert name config
                                providerCls := c.providerCls.insert name cls } ps

/-- `if self.data_dir: self.data_dir = Path(self.data_dir)`. -/
def confirmDataDir (v : PyVal) : Except PyExc PyVal := if v.truthy then toPath v else .ok v

/-- `validate`. -/
def LBConfig.validate (c : LBConfig) : Except PyExc Unit :=
  match c.dataDir with
  | .none => .error ⟨.invalidConfigException,
      "missing required config: please check 'data_dir' in your config file."⟩
  | _ => .ok ()

/-- `LBConfig.load`, of what the file is parsed to. -/
def LBConfig.load (raw : PyDict) : Except PyExc LBConfig := do
  let dataDir ← confirmDataDir ((raw.get? "data_dir").getD .none)
  let user ← confirmUsers .empty (← items ((raw.get? "user").getD (.dict [])))
  let config ← confirmProviders importModule
    { dataDir := dataDir, user := user, provider := .empty, providerCls := .empty }
    (← items ((raw.get? "provider").getD (.dict [])))
  config.validate
  return config

/-- `LBConfig.reload`, with what the parser makes of the file at that moment. -/
def LBConfig.reload (file : Except PyExc PyDict) : Except PyExc LBConfig := do
  LBConfig.load importModule (← file)

/-! ### What is loaded -/

variable {importModule}

/-- The entries of a table of the file, if it is one. -/
def table (raw : PyDict) (name : String) : PyDict :=
  match raw.get? name with
  | some (.dict ms) => .ofPairs ms
  | _ => .empty

/-- An option as the file gives it in a provider's section, or else as its class does. -/
def optionOf (raw : PyDict) (cls : ProviderClass) (name option : String) : Option PyVal :=
  match (table raw "provider").get? name with
  | some (.dict ms) => (keyword? option ms).or (cls.configFields.default? option)
  | _ => none

theorem items_table {raw : PyDict} {name : String} {es : List (String × PyVal)}
    (h : items ((raw.get? name).getD (.dict [])) = .ok es) : (table raw name).entries = es := by
  unfold table
  cases hv : raw.get? name with
  | none =>
    rw [hv] at h
    cases h
    rfl
  | some v =>
    rw [hv] at h
    cases v <;> cases h
    rfl

/-- The entries of other names stay. -/
theorem confirmProviders_frame {ps : List (String × PyVal)} {c c' : LBConfig} {name : String}
    (h : confirmProviders importModule c ps = .ok c') (hname : name ∉ ps.map Prod.fst) :
    c'.provider.get? name = c.provider.get? name ∧
      c'.providerCls.get? name = c.providerCls.get? name := by
  induction ps generalizing c with
  | nil =>
    cases h
    exact ⟨rfl, rfl⟩
  | cons p ps ih =>
    obtain ⟨k, config⟩ := p
    obtain ⟨hne, hps⟩ : name ≠ k ∧ name ∉ ps.map Prod.fst := by simpa using hname
    simp only [confirmProviders, bind_eq_ok] at h
    obtain ⟨r, -, h⟩ := h
    cases r with
    | none =>
      obtain ⟨hp, hcls⟩ := ih h hps
      exact ⟨hp.trans (OrderedDict.get?_insert_of_ne hne), hcls⟩
    | some q =>
      obtain ⟨hp, hcls⟩ := ih h hps
      exact ⟨hp.trans (OrderedDict.get?_insert_of_ne hne),
        hcls.trans (OrderedDict.get?_insert_of_ne hne)⟩

/-- A class that is new was imported for the section of its name. -/
theorem confirmProviders_cls {ps : List (String × PyVal)} {c c' : LBConfig} {name : String}
    {cls : ProviderClass} (h : confirmProviders importModule c ps = .ok c')
    (hnodup : (ps.map Prod.fst).Nodup) (hold : c.providerCls.get? name = none)
    (hcls : c'.providerCls.get? name = some cls) :
    ∃ section' config, (name, section') ∈ ps ∧
      confirmProvider importModule name section' = .ok (some (cls, config)) ∧
        c'.provider.get? name = some config := by
  induction ps generalizing c with
  | nil =>
    cases h
    rw [hold] at hcls
    cases hcls
  | cons p ps ih =>
    obtain ⟨k, v⟩ := p
    obtain ⟨hk, hps⟩ := List.nodup_cons.mp hnodup
    simp only [confirmProviders, bind_eq_ok] at h
    obtain ⟨r, hr, h⟩ := h
    by_cases hname : name = k
    · subst hname
      cases r with
      | none =>
        rw [(confirmProviders_frame h hk).2, hold] at hcls
        cases hcls
      | some q =>
        obtain ⟨cls', config⟩ := q
        obtain ⟨hp, hc⟩ := confirmProviders_frame h hk
        rw [OrderedDict.get?_insert_self] at hp hc
        rw [hc] at hcls
        cases hcls
        exact ⟨v, config, List.mem_cons_self, hr, hp⟩
    · have hrest : ∃ section' config, (name, section') ∈ ps ∧
          confirmProvider importModule name section' = .ok (some (cls, config)) ∧
            c'.provider.get? name = some config := by
        cases r with
        | none => exact ih h hps hold
        | some q => exact ih h hps ((OrderedDict.get?_insert_of_ne hname).trans hold)
      obtain ⟨section', config, hmem, hrest⟩ := hrest
      exact ⟨section', config, List.mem_cons_of_mem _ hmem, hrest⟩

theorem confirmProvider_some {name : String} {v : PyVal} {cls : ProviderClass} {config : Confirmed}
    (h : confirmProvider importModule name v = .ok (some (cls, config))) :
    ∃ ms attrs, v = .dict ms ∧ construct cls.configFields ms = .ok attrs ∧
      config = .object attrs := by
  cases v with
  | dict ms =>
    simp only [confirmProvider] at h
    split_ifs at h with henable
    · cases h
    obtain ⟨found, -, h⟩ := bind_eq_ok.mp h
    split at h
    · cases h
    · cases h
    · cases h
    · simp only [bind_eq_ok, confirmDcType] at h
      obtain ⟨config', ⟨attrs, hattrs, hconfig⟩, h⟩ := h
      cases hconfig
      cases h
      exact ⟨ms, attrs, rfl, hattrs, rfl⟩
  | _ => cases h

/-- The options of an enabled provider are the file's own values and the defaults of its
class, whatever these are. -/
theorem LBConfig.load_option {raw : PyDict} {c : LBConfig} {name : String} {cls : ProviderClass}
    (h : LBConfig.load importModule raw = .ok c) (hcls : c.providerCls.get? name = some cls) :
    ∃ config, c.provider.get? name = some config ∧
      ∀ option, config.attr? option = optionOf raw cls name option := by
  simp only [LBConfig.load, bind_eq_ok] at h
  obtain ⟨dataDir, -, us, -, user, -, ps, hps, config, hconfig, -, -, h⟩ := h
  cases h
  have hentries := items_table hps
  obtain ⟨v, config, hmem, hconfirm, hp⟩ := confirmProviders_cls hconfig
    (hentries ▸ (table raw "provider").nodup) rfl hcls
  obtain ⟨ms, attrs, rfl, hattrs, rfl⟩ := confirmProvider_some hconfirm
  have hget : (table raw "provider").get? name = some (.dict ms) := by
    rw [OrderedDict.get?_eq_some_iff, hentries]
    exact hmem
  refine ⟨_, hp, fun option => ?_⟩
  rw [optionOf, hget]
  exact attr?_construct hattrs option

end Lobbyboy.Config
