import Lobbyboy.Utils.Encoder
import Lobbyboy.Foundation.JsonRoundTrip
import Lobbyboy.Foundation.OrderedDict

/-! The records of `config.py`: what is known of a server, and the part of a provider's
configuration that every provider has. A server's record is stored as the JSON object
of its fields and built from one by keyword. -/

namespace Lobbyboy.Config

open Foundation Utils

/-- `None` stands for an option that the configuration file leaves out. -/
structure LBConfigProvider where
  loadModule : Option String := none
  enable : Bool := true
  minLifeToLive : Option String := none
  billTimeUnit : Option String := none
  destroySafeTime : Option String := none
  serverNamePrefix : Option String := none
  apiToken : Option String := none
  extraSshKeys : List String := []
  deriving DecidableEq

structure LBServerMeta where
  providerName : String
  workspace : PosixPath
  serverName : String
  serverHost : String := "127.0.0.1"
  serverUser : String := "root"
  serverPort : ℤ := 22
  createdTimestamp : ℤ
  sshExtraArgs : List String := []
  manage : Bool := true
  deriving DecidableEq

namespace LBServerMeta

/-- `now` is `int(time.time())`. -/
def liveSec (m : LBServerMeta) (now : ℤ) : ℤ := now - m.createdTimestamp

/-- `dataclasses.asdict`, in field order. -/
def asdict (m : LBServerMeta) : PyVal :=
  .dict [("provider_name", .str m.providerName), ("workspace", .path m.workspace),
    ("server_name", .str m.serverName), ("server_host", .str m.serverHost),
    ("server_user", .str m.serverUser), ("server_port", .int m.serverPort),
    ("created_timestamp", .int m.createdTimestamp),
    ("ssh_extra_args", .list (m.sshExtraArgs.map .str)), ("manage", .bool m.manage)]

/-- The stored object. -/
def stored (m : LBServerMeta) : Json :=
  .obj [("provider_name", .str m.providerName), ("workspace", .str m.workspace.str),
    ("server_name", .str m.serverName), ("server_host", .str m.serverHost),
    ("server_user", .str m.serverUser), ("server_port", .int m.serverPort),
    ("created_timestamp", .int m.createdTimestamp),
    ("ssh_extra_args", .arr (m.sshExtraArgs.map .str)), ("manage", .bool m.manage)]

theorem toJsonItems_str (xs : List String) : toJsonItems (xs.map .str) = .ok (xs.map .str) := by
  induction xs with
  | nil => rfl
  | cons x xs ih => simp [toJsonItems, toJson, ih, bind, Except.bind, pure, Except.pure]

/-- A record of the declared types never reaches the encoder's `TypeError`. -/
theorem toJson_asdict (m : LBServerMeta) : toJson m.asdict = .ok m.stored := by
  simp [asdict, stored, toJson, toJsonMembers, toJsonItems_str, bind, Except.bind, pure,
    Except.pure]

theorem floatFreeItems_str (xs : List String) : Json.floatFreeItems (xs.map .str) = true := by
  induction xs with
  | nil => rfl
  | cons x xs ih => simpa [Json.floatFreeItems, Json.floatFree] using ih

theorem floatFree_stored (m : LBServerMeta) : m.stored.floatFree = true := by
  simp [stored, Json.floatFree, Json.floatFreeMembers, floatFreeItems_str]

end LBServerMeta

/-! ### Construction by keyword

`LBServerMeta(**i)` refuses unknown and missing names. Python does not look at the
values; a value that is not of the field's declared type has no counterpart here and is
refused as well. `ServerObj.ofKwargs` is the construction that takes it, and agrees with
this one where the values are as declared. -/

def fieldNames : List String :=
  ["provider_name", "workspace", "server_name", "server_host", "server_user", "server_port",
    "created_timestamp", "ssh_extra_args", "manage"]

/-- The last member of that name. -/
def member? (name : String) : List (String × Json) → Option Json
  | [] => none
  | (k, v) :: ms => (member? name ms).or (if k = name then some v else none)

def readStr : Json → Option String
  | .str s => some s
  | _ => none

/-- `__post_init__` makes a `Path` of every workspace but the empty string. -/
def readPath : Json → Option PosixPath
  | .str s => if s = "" then none else some (.parse s)
  | _ => none

def readInt : Json → Option ℤ
  | .int i => some i
  | _ => none

def readBool : Json → Option Bool
  | .bool b => some b
  | _ => none

def readStrs : List Json → Option (List String)
  | [] => some []
  | x :: xs => do return (← readStr x) :: (← readStrs xs)

def readStrList : Json → Option (List String)
  | .arr xs => readStrs xs
  | _ => none

/-- A field's value from its keyword argument or its default. -/
def field {α : Type} (ms : List (String × Json)) (name : String) (read : Json → Option α)
    (default : Option α) : Except PyExc α :=
  match member? name ms with
  | some v =>
    match read v with
    | some a => .ok a
    | none => .error ⟨.typeError, name⟩
  | none =>
    match default with
    | some a => .ok a
    | none => .error ⟨.typeError, s!"__init__() missing a required argument: '{name}'"⟩

/-- `LBServerMeta(**i)` at the time `now`, where the values have the declared types. Python
looks at no type; a record with other values is a `ServerObj`, and is refused here. -/
def LBServerMeta.ofKwargs (now : ℤ) (ms : List (String × Json)) : Except PyExc LBServerMeta :=
  match ms.find? fun e => e.1 ∉ fieldNames with
  | some e => .error ⟨.typeError, s!"__init__() got an unexpected keyword argument '{e.1}'"⟩
  | none => do
    return {
      providerName := ← field ms "provider_name" readStr none
      workspace := ← field ms "workspace" readPath none
      serverName := ← field ms "server_name" readStr none
      serverHost := ← field ms "server_host" readStr (some "127.0.0.1")
      serverUser := ← field ms "server_user" readStr (some "root")
      serverPort := ← field ms "server_port" readInt (some 22)
      createdTimestamp := ← field ms "created_timestamp" readInt (some now)
      sshExtraArgs := ← field ms "ssh_extra_args" readStrList (some [])
      manage := ← field ms "manage" readBool (some true) }

def LBServerMeta.ofJson (now : ℤ) : Json → Except PyExc LBServerMeta
  | .obj ms => ofKwargs now ms
  | _ => .error ⟨.typeError, "argument after ** must be a mapping"⟩

theorem readStrs_str (xs : List String) : readStrs (xs.map .str) = some xs := by
  induction xs with
  | nil => rfl
  | cons x xs ih => simp [readStrs, readStr, ih]

theorem readPath_str (p : PosixPath) : readPath (.str p.str) = some p := by
  simp [readPath, PosixPath.str_ne_empty, PosixPath.parse_str]

/-- A stored record is built again as it was, at any time. -/
theorem ofJson_stored (now : ℤ) (m : LBServerMeta) : LBServerMeta.ofJson now m.stored = .ok m := by
  simp [LBServerMeta.ofJson, LBServerMeta.stored, LBServerMeta.ofKwargs, field, member?, fieldNames,
    readPath_str, readStr, readInt, readBool, readStrList, readStrs_str, bind, Except.bind, pure,
    Except.pure]

/-- The time only fills in a missing creation time. -/
theorem ofKwargs_time {now : ℤ} {ms : List (String × Json)} {m : LBServerMeta}
    (h : LBServerMeta.ofKwargs now ms = .ok m) (now' : ℤ) :
    ∃ created, LBServerMeta.ofKwargs now' ms = .ok { m with createdTimestamp := created } := by
  unfold LBServerMeta.ofKwargs at h ⊢
  split at h
  · cases h
  · have hfield : ∀ {c : ℤ}, field ms "created_timestamp" readInt (some now) = .ok c →
        ∃ c', field ms "created_timestamp" readInt (some now') = .ok c' := by
      intro c hc
      unfold field at hc ⊢
      split at hc
      · exact ⟨c, hc⟩
      · exact ⟨now', rfl⟩
    simp only [bind_eq_ok] at h
    obtain ⟨_, h₁, _, h₂, _, h₃, _, h₄, _, h₅, _, h₆, _, h₇, _, h₈, _, h₉, hm⟩ := h
    cases hm
    obtain ⟨c, hc⟩ := hfield h₇
    exact ⟨c, by simp [h₁, h₂, h₃, h₄, h₅, h₆, hc, h₈, h₉, pure, Except.pure]⟩

theorem ofJson_time {now : ℤ} {i : Json} {m : LBServerMeta} (h : LBServerMeta.ofJson now i = .ok m)
    (now' : ℤ) :
    ∃ created, LBServerMeta.ofJson now' i = .ok { m with createdTimestamp := created } := by
  cases i with
  | obj ms => exact ofKwargs_time h now'
  | _ => cases h

end Lobbyboy.Config
