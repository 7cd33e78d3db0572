import Lobbyboy.Exceptions
import Lobbyboy.Foundation.DateTime
import Lobbyboy.Foundation.Json
import Lobbyboy.Foundation.PosixPath

/-! What `json.dumps(obj, default=encoder_factory())` makes of a Python object: the
values JSON knows are written as they are, the others go through the encoder first. -/

namespace Lobbyboy.Utils

open Foundation

/-- The Python objects the encoder tells apart. `other` is anything it has no rule for,
with its `repr`. -/
inductive PyVal where
  | none
  | bool (b : Bool)
  | int (i : ℤ)
  | float (literal : List Char)
  | str (s : String)
  | list (xs : List PyVal)
  | dict (ms : List (String × PyVal))
  | datetime (t : DateTime)
  | date (t : DateTime)
  | decimal (text : String)
  | path (p : PosixPath)
  | dataclass (fields : List (String × PyVal))
  | other (repr : String)

/-- The values `json.dumps` writes without asking the encoder. -/
def PyVal.native : PyVal → Bool
  | .none | .bool _ | .int _ | .float _ | .str _ | .list _ | .dict _ => true
  | _ => false

/-- The digits before the exponent are all zero. -/
def isZeroLiteral (l : List Char) : Bool :=
  (l.takeWhile fun c => c ≠ 'e' ∧ c ≠ 'E').all fun c => c = '0' ∨ c = '.' ∨ c = '-'

/-- `bool(obj)`. -/
def PyVal.truthy : PyVal → Bool
  | .none => false
  | .bool b => b
  | .int i => i ≠ 0
  | .float l => !isZeroLiteral l
  | .str s => s ≠ ""
  | .list xs => !xs.isEmpty
  | .dict ms => !ms.isEmpty
  | .decimal text => !isZeroLiteral text.toList
  | .datetime _ | .date _ | .path _ | .dataclass _ | .other _ => true

/-- The arguments of `encoder_factory`, with its defaults; the factories for decimals,
paths and dataclasses are the defaults `str`, `str` and `asdict`. -/
structure EncoderArgs where
  dateFmt : String := "%Y-%m-%d"
  dtFmt : String := "%Y-%m-%d %H:%M:%S"
  raiseError : Bool := true

/-- The closure `encoder_factory` returns. -/
def encoderFactory (args : EncoderArgs) : PyVal → Except PyExc PyVal
  | .datetime t => .ok (.str (t.strftime args.dtFmt))
  | .date t => .ok (.str (t.strftime args.dateFmt))
  | .decimal text => .ok (.str text)
  | .path p => .ok (.str p.str)
  | .dataclass fields => .ok (.dict fields)
  | .other repr =>
    if args.raiseError then .error ⟨.typeError, s!"{repr} is not JSON serializable"⟩
    else .ok (.other repr)
  -- `json.dumps` never asks about the values it knows itself
  | obj => if args.raiseError then .error ⟨.typeError, "not JSON serializable"⟩ else .ok obj

mutual

/-- `json.dumps` walking an object with the default encoder. -/
def toJson : PyVal → Except PyExc Json
  | .none => .ok .null
  | .bool b => .ok (.bool b)
  | .int i => .ok (.int i)
  | .float l => .ok (.float l)
  | .str s => .ok (.str s)
  | .list xs => do return .arr (← toJsonItems xs)
  | .dict ms => do return .obj (← toJsonMembers ms)
  | .datetime t => .ok (.str (t.strftime "%Y-%m-%d %H:%M:%S"))
  | .date t => .ok (.str (t.strftime "%Y-%m-%d"))
  | .decimal text => .ok (.str text)
  | .path p => .ok (.str p.str)
  | .dataclass fields => do return .obj (← toJsonMembers fields)
  | .other repr => .error ⟨.typeError, s!"{repr} is not JSON serializable"⟩

def toJsonItems : List PyVal → Except PyExc (List Json)
  | [] => .ok []
  | x :: xs => do return (← toJson x) :: (← toJsonItems xs)

def toJsonMembers : List (String × PyVal) → Except PyExc (List (String × Json))
  | [] => .ok []
  | (k, x) :: ms => do return (k, ← toJson x) :: (← toJsonMembers ms)

end

/-- A value JSON does not know is replaced by what the encoder answers. -/
theorem toJson_encoderFactory {obj : PyVal} (h : obj.native = false) :
    toJson obj = encoderFactory {} obj >>= toJson := by
  cases obj <;> simp_all [PyVal.native, toJson, encoderFactory, bind, Except.bind]

/-! ### What can be encoded -/

mutual

/-- Nothing inside is refused by the encoder. -/
def PyVal.encodable : PyVal → Bool
  | .list xs => encodableItems xs
  | .dict ms => encodableMembers ms
  | .dataclass fields => encodableMembers fields
  | .other _ => false
  | _ => true

def PyVal.encodableItems : List PyVal → Bool
  | [] => true
  | x :: xs => x.encodable && encodableItems xs

def PyVal.encodableMembers : List (String × PyVal) → Bool
  | [] => true
  | (_, x) :: ms => x.encodable && encodableMembers ms

end

mutual

theorem toJson_eq_ok_iff : ∀ v : PyVal, (∃ j, toJson v = .ok j) ↔ v.encodable = true
  | .none | .bool _ | .int _ | .float _ | .str _ | .datetime _ | .date _ | .decimal _ | .path _
  | .other _ => by simp [toJson, PyVal.encodable]
  | .list xs => by
    simp [toJson, PyVal.encodable, bind_eq_ok, pure, Except.pure, ← toJsonItems_eq_ok_iff xs]
  | .dict ms => by
    simp [toJson, PyVal.encodable, bind_eq_ok, pure, Except.pure, ← toJsonMembers_eq_ok_iff ms]
  | .dataclass fields => by
    simp [toJson, PyVal.encodable, bind_eq_ok, pure, Except.pure, ← toJsonMembers_eq_ok_iff fields]

theorem toJsonItems_eq_ok_iff : ∀ xs : List PyVal,
    (∃ js, toJsonItems xs = .ok js) ↔ PyVal.encodableItems xs = true
  | [] => by simp [toJsonItems, PyVal.encodableItems]
  | x :: xs => by
    simp [toJsonItems, PyVal.encodableItems, bind_eq_ok, pure, Except.pure, ← toJson_eq_ok_iff x,
      ← toJsonItems_eq_ok_iff xs]

theorem toJsonMembers_eq_ok_iff : ∀ ms : List (String × PyVal),
    (∃ js, toJsonMembers ms = .ok js) ↔ PyVal.encodableMembers ms = true
  | [] => by simp [toJsonMembers, PyVal.encodableMembers]
  | (k, x) :: ms => by
    simp [toJsonMembers, PyVal.encodableMembers, bind_eq_ok, pure, Except.pure,
      ← toJson_eq_ok_iff x, ← toJsonMembers_eq_ok_iff ms]

end

theorem encodableItems_iff {xs : List PyVal} :
    PyVal.encodableItems xs = true ↔ ∀ x ∈ xs, x.encodable = true := by
  induction xs with
  | nil => simp [PyVal.encodableItems]
  | cons x xs ih => simp [PyVal.encodableItems, ih]

theorem encodableMembers_iff {ms : List (String × PyVal)} :
    PyVal.encodableMembers ms = true ↔ ∀ e ∈ ms, e.2.encodable = true := by
  induction ms with
  | nil => simp [PyVal.encodableMembers]
  | cons e ms ih =>
    obtain ⟨k, x⟩ := e
    simp [PyVal.encodableMembers, ih]

/-- `json.dumps(obj, default=encoder_factory())`. -/
def jsonDumps (obj : PyVal) : Except PyExc String := do return (← toJson obj).dumps

end Lobbyboy.Utils
