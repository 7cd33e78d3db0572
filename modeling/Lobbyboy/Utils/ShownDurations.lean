import Lobbyboy.Utils.Durations
import Mathlib.Data.List.Basic

/-! What is shown of a duration says how many seconds it is. -/

namespace Lobbyboy.Utils

/-! ### Reading -/

def readNumber (ds : List Char) : ℕ := Nat.ofDigitChars 10 ds 0

def readInteger : List Char → ℤ
  | '-' :: ds => -readNumber ds
  | ds => readNumber ds

/-- Hours, minutes and seconds. -/
def readClock (cs : List Char) : Option ℤ :=
  match cs.splitOn ':' with
  | [h, m, s] => some (readNumber h * 3600 + readNumber m * 60 + readNumber s)
  | _ => none

/-- The seconds of a shown `timedelta`. -/
def readTimedelta (cs : List Char) : Option ℤ :=
  match cs.splitOn ' ' with
  | [clock] => readClock clock
  | [days, _, clock] => (readClock clock).map (readInteger days * 86400 + ·)
  | _ => none

/-! ### The numbers -/

theorem readNumber_toDigits (n : ℕ) : readNumber (Nat.toDigits 10 n) = n :=
  Nat.ofDigitChars_ten_toDigits

theorem isDigit_of_mem {n : ℕ} {c : Char} (h : c ∈ Nat.toDigits 10 n) : c.isDigit = true :=
  Nat.isDigit_of_mem_toDigits (by decide) (by decide) h

theorem toList_toString (n : ℕ) : (toString n).toList = Nat.toDigits 10 n := Nat.toList_repr

theorem toList_twoDigits (n : ℕ) :
    (twoDigits n).toList = (if n < 10 then ['0'] else []) ++ Nat.toDigits 10 n := by
  rw [twoDigits, String.toList_append, toList_toString]
  split_ifs <;> rfl

theorem readNumber_twoDigits (n : ℕ) : readNumber (twoDigits n).toList = n := by
  rw [toList_twoDigits]
  split_ifs
  · exact readNumber_toDigits n
  · exact readNumber_toDigits n

theorem isDigit_of_mem_twoDigits {n : ℕ} {c : Char} (h : c ∈ (twoDigits n).toList) :
    c.isDigit = true := by
  rw [toList_twoDigits, List.mem_append] at h
  rcases h with h | h
  · split_ifs at h
    · rw [List.mem_singleton.mp h]
      rfl
    · cases h
  · exact isDigit_of_mem h

theorem readInteger_toString (i : ℤ) : readInteger (toString i).toList = i := by
  cases i with
  | ofNat n =>
    have hlist : (toString (Int.ofNat n)).toList = Nat.toDigits 10 n := Nat.toList_repr
    have hread : readInteger (Nat.toDigits 10 n) = readNumber (Nat.toDigits 10 n) := by
      unfold readInteger
      split
      · next ds heq =>
        have hminus : ('-' : Char).isDigit = true := isDigit_of_mem (heq ▸ List.mem_cons_self)
        cases hminus
      · rfl
    rw [hlist, hread, readNumber_toDigits]
    rfl
  | negSucc n =>
    have hlist : (toString (Int.negSucc n)).toList = '-' :: Nat.toDigits 10 (n + 1) := by
      change ("-" ++ (n + 1).repr).toList = _
      rw [String.toList_append, Nat.toList_repr]
      rfl
    rw [hlist, readInteger, readNumber_toDigits]
    rfl

theorem not_mem_toString {i : ℤ} {c : Char} (hc : c.isDigit = false) (hminus : c ≠ '-') :
    c ∉ (toString i).toList := by
  intro h
  cases i with
  | ofNat n =>
    have hlist : (toString (Int.ofNat n)).toList = Nat.toDigits 10 n := Nat.toList_repr
    rw [hlist] at h
    rw [isDigit_of_mem h] at hc
    cases hc
  | negSucc n =>
    have hlist : (toString (Int.negSucc n)).toList = '-' :: Nat.toDigits 10 (n + 1) := by
      change ("-" ++ (n + 1).repr).toList = _
      rw [String.toList_append, Nat.toList_repr]
      rfl
    rw [hlist] at h
    rcases List.mem_cons.mp h with h | h
    · exact hminus h
    · rw [isDigit_of_mem h] at hc
      cases hc

/-! ### The round trip -/

/-- The time of day of a duration. -/
def clock (rest : ℕ) : String :=
  s!"{rest / 3600}:{twoDigits (rest % 3600 / 60)}:{twoDigits (rest % 60)}"

theorem toList_clock (rest : ℕ) : (clock rest).toList = [':'].intercalate
    [Nat.toDigits 10 (rest / 3600), (twoDigits (rest % 3600 / 60)).toList,
      (twoDigits (rest % 60)).toList] := by
  simp [clock, toString, String.toList_append, Nat.toList_repr, List.intercalate_cons_cons]

theorem readClock_clock (rest : ℕ) : readClock (clock rest).toList = some (rest : ℤ) := by
  rw [readClock, toList_clock, List.splitOn_intercalate]
  · simp only [readNumber_toDigits, readNumber_twoDigits]
    congr 1
    omega
  · intro part hpart hcolon
    have hdigit : (':' : Char).isDigit = true := by
      simp only [List.mem_cons, List.not_mem_nil, or_false] at hpart
      rcases hpart with rfl | rfl | rfl
      · exact isDigit_of_mem hcolon
      · exact isDigit_of_mem_twoDigits hcolon
      · exact isDigit_of_mem_twoDigits hcolon
    cases hdigit
  · exact List.cons_ne_nil _ _

theorem space_not_mem_clock (rest : ℕ) : ' ' ∉ (clock rest).toList := by
  intro h
  have hnot : (' ' : Char).isDigit = false := rfl
  rw [toList_clock] at h
  simp only [List.intercalate_cons_cons, List.intercalate_singleton, List.mem_append,
    List.mem_singleton] at h
  rcases h with (h | h) | (h | h) | h
  · rw [isDigit_of_mem h] at hnot
    cases hnot
  · cases h
  · rw [isDigit_of_mem_twoDigits h] at hnot
    cases hnot
  · cases h
  · rw [isDigit_of_mem_twoDigits h] at hnot
    cases hnot

theorem toList_days (days : ℤ) (plural : String) (rest : ℕ) :
    s!"{days} day{plural}, {clock rest}".toList = [' '].intercalate
      [(toString days).toList, "day".toList ++ plural.toList ++ [','], (clock rest).toList] := by
  simp only [String.toList_append, List.intercalate_cons_cons, List.intercalate_singleton,
    List.append_assoc]
  rfl

theorem readTimedelta_days {days : ℤ} {plural : String} {rest : ℕ} (h : ' ' ∉ plural.toList) :
    readTimedelta s!"{days} day{plural}, {clock rest}".toList = some (days * 86400 + rest) := by
  have hsplit : s!"{days} day{plural}, {clock rest}".toList.splitOn ' ' =
      [(toString days).toList, "day".toList ++ plural.toList ++ [','], (clock rest).toList] := by
    rw [toList_days, List.splitOn_intercalate]
    · intro part hpart
      simp only [List.mem_cons, List.not_mem_nil, or_false] at hpart
      rcases hpart with rfl | rfl | rfl
      · exact not_mem_toString rfl (by decide)
      · simpa using h
      · exact space_not_mem_clock rest
    · exact List.cons_ne_nil _ _
  rw [readTimedelta, hsplit]
  simp only [readClock_clock, readInteger_toString, Option.map_some]

/-- The seconds are read back from what `humanize_seconds` shows. -/
theorem readTimedelta_humanizeSeconds {seconds : ℤ} {text : String}
    (h : humanizeSeconds seconds = .ok text) : readTimedelta text.toList = some seconds := by
  have hseconds : seconds / 86400 * 86400 + ((seconds % 86400).toNat : ℤ) = seconds := by omega
  unfold humanizeSeconds at h
  dsimp only at h
  by_cases hrange : seconds / 86400 < -999999999 ∨ 999999999 < seconds / 86400
  · rw [if_pos hrange] at h
    cases h
  · rw [if_neg hrange] at h
    by_cases hdays : seconds / 86400 = 0
    · rw [if_pos hdays] at h
      obtain rfl : clock (seconds % 86400).toNat = text := Except.ok.inj h
      have hsplit : (clock (seconds % 86400).toNat).toList.splitOn ' ' =
          [(clock (seconds % 86400).toNat).toList] :=
        List.splitOn_eq_singleton (space_not_mem_clock _)
      rw [readTimedelta, hsplit]
      simp only [readClock_clock]
      congr 1
      omega
    · rw [if_neg hdays] at h
      have hplural : ' ' ∉ (if (seconds / 86400).natAbs = 1 then "" else "s").toList := by
        split_ifs <;> decide
      rw [← Except.ok.inj h]
      exact (readTimedelta_days hplural).trans (congrArg some hseconds)

/-- Different durations are shown differently. -/
theorem humanizeSeconds_injective {a b : ℤ} {text : String} (ha : humanizeSeconds a = .ok text)
    (hb : humanizeSeconds b = .ok text) : a = b := by
  have hread := (readTimedelta_humanizeSeconds ha).symm.trans (readTimedelta_humanizeSeconds hb)
  exact Option.some.inj hread

end Lobbyboy.Utils
