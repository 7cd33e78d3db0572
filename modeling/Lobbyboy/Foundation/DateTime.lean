import Mathlib.Data.Nat.Notation

/-! Wall-clock readings and the `strftime` directives that stand for numbers. -/

namespace Lobbyboy.Foundation

structure DateTime where
  year : ℕ
  month : ℕ
  day : ℕ
  hour : ℕ
  minute : ℕ
  second : ℕ
  deriving DecidableEq

/-- At least two digits. -/
def padTwo (n : ℕ) : List Char := if n < 10 then '0' :: Nat.toDigits 10 n else Nat.toDigits 10 n

namespace DateTime

def directive (t : DateTime) : Char → Option (List Char)
  | 'Y' => some (Nat.toDigits 10 t.year)
  | 'm' => some (padTwo t.month)
  | 'd' => some (padTwo t.day)
  | 'H' => some (padTwo t.hour)
  | 'M' => some (padTwo t.minute)
  | 'S' => some (padTwo t.second)
  | _ => none

def formatChars (t : DateTime) : List Char → List Char
  | [] => []
  | [c] => [c]
  | c :: d :: cs =>
    match if c = '%' then t.directive d else none with
    | some text => text ++ formatChars t cs
    | none => c :: formatChars t (d :: cs)

def strftime (t : DateTime) (fmt : String) : String := String.ofList (t.formatChars fmt.toList)

example : (⟨2012, 1, 14, 12, 0, 1⟩ : DateTime).strftime "%Y-%m-%d-%H%M" = "2012-01-14-1200" := by
  decide

end DateTime

end Lobbyboy.Foundation
