import Lobbyboy.Exceptions
import Mathlib.Data.Int.Notation
import Mathlib.Data.Nat.Notation

/-! Durations of the configuration and how they are shown: `to_seconds`, whose regular
expression admits every Unicode decimal digit and a final newline, and
`humanize_seconds`, which is limited to what a `timedelta` can hold. -/

namespace Lobbyboy.Utils

/-! ### `to_seconds` -/

def unitSecPairs : List (Char × ℕ) :=
  [('s', 1), ('m', 1 * 60), ('h', 1 * 60 * 60), ('d', 1 * 60 * 60 * 24)]

/-- The zeros of the Unicode decimal digits; the nine characters after each are its
digits one to nine. -/
def decimalZeros : List ℕ :=
  [0x30, 0x660, 0x6f0, 0x7c0, 0x966, 0x9e6, 0xa66, 0xae6, 0xb66, 0xbe6, 0xc66, 0xce6, 0xd66,
    0xde6, 0xe50, 0xed0, 0xf20, 0x1040, 0x1090, 0x17e0, 0x1810, 0x1946, 0x19d0, 0x1a80, 0x1a90,
    0x1b50, 0x1bb0, 0x1c40, 0x1c50, 0xa620, 0xa8d0, 0xa900, 0xa9d0, 0xa9f0, 0xaa50, 0xabf0,
    0xff10, 0x104a0, 0x10d30, 0x11066, 0x110f0, 0x11136, 0x111d0, 0x112f0, 0x11450, 0x114d0,
    0x11650, 0x116c0, 0x11730, 0x118e0, 0x11950, 0x11c50, 0x11d50, 0x11da0, 0x16a60, 0x16ac0,
    0x16b50, 0x1d7ce, 0x1d7d8, 0x1d7e2, 0x1d7ec, 0x1d7f6, 0x1e140, 0x1e2f0, 0x1e950, 0x1fbf0]

/-- The value of a character that `\d` matches. -/
def decimalDigit? (c : Char) : Option ℕ :=
  (decimalZeros.find? fun z => z ≤ c.toNat ∧ c.toNat < z + 10).map fun z => c.toNat - z

/-- `int` of the digits read so far and the ones that follow, and the rest. -/
def takeDecimal (acc : ℕ) : List Char → ℕ × List Char
  | [] => (acc, [])
  | c :: cs =>
    match decimalDigit? c with
    | some d => takeDecimal (10 * acc + d) cs
    | none => (acc, c :: cs)

/-- `re.match(r"^(\d+){unit}$", s)`, with the group as a number; `$` also matches before
a newline that ends the string. -/
def matchUnit (unit : Char) (s : List Char) : Option ℕ :=
  match s with
  | [] => none
  | c :: _ =>
    if (decimalDigit? c).isSome then
      let p := takeDecimal 0 s
      if p.2 = [unit] ∨ p.2 = [unit, '\n'] then some p.1 else none
    else none

/-- The first unit whose expression matches decides. -/
def matchUnits (s : List Char) : List (Char × ℕ) → Option ℕ
  | [] => none
  | (unit, sec) :: pairs =>
    match matchUnit unit s with
    | some n => some (n * sec)
    | none => matchUnits s pairs

/-- `none` is Python's `None`, on which `re.match` raises. -/
def toSeconds (timeStr : Option String) : Except PyExc ℕ :=
  match timeStr with
  | none => .error ⟨.typeError, "expected string or bytes-like object"⟩
  | some s =>
    if s = "0" then .ok 0
    else
      match matchUnits s.toList unitSecPairs with
      | some n => .ok n
      | none => .error ⟨.timeStrParseTypeException, s!"Can not parse {s}"⟩

/-! ### `humanize_seconds` -/

/-- `%02d` of a number below one hundred. -/
def twoDigits (n : ℕ) : String := (if n < 10 then "0" else "") ++ toString n

/-- `str(timedelta(seconds=seconds))`. -/
def humanizeSeconds (seconds : ℤ) : Except PyExc String :=
  let days := seconds / 86400
  let rest := (seconds % 86400).toNat
  if days < -999999999 ∨ 999999999 < days then
    .error ⟨.overflowError, s!"days={days}; must have magnitude <= 999999999"⟩
  else
    let clock := s!"{rest / 3600}:{twoDigits (rest % 3600 / 60)}:{twoDigits (rest % 60)}"
    let plural := if days.natAbs = 1 then "" else "s"
    .ok (if days = 0 then clock else s!"{days} day{plural}, {clock}")

/-- What is still to come is shown if it is less than a billion days. -/
theorem humanizeSeconds_returns_iff {seconds : ℤ} (h : 0 ≤ seconds) :
    (∃ text, humanizeSeconds seconds = .ok text) ↔ seconds < 86400 * 1000000000 := by
  unfold humanizeSeconds
  by_cases hdays : seconds / 86400 < -999999999 ∨ 999999999 < seconds / 86400
  · have hlong : 86400 * 1000000000 ≤ seconds := by omega
    simpa [hdays] using hlong
  · have hshort : seconds < 86400 * 1000000000 := by omega
    dsimp only
    rw [if_neg hdays]
    exact ⟨fun _ => hshort, fun _ => ⟨_, rfl⟩⟩

example : toSeconds (some "59m") = .ok (60 * 59) := by rfl

example : humanizeSeconds 364121 = .ok "4 days, 5:08:41" := by rfl

end Lobbyboy.Utils
