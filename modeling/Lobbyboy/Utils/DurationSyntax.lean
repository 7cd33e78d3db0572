import Lobbyboy.Utils.Durations
import Mathlib.Data.List.Basic

/-! What `to_seconds` accepts. The documentation shows digits and one unit; the expression
also takes the digits of other scripts, and a newline at the end. -/

namespace Lobbyboy.Utils

/-! ### Digits -/

/-- Decimal digits of any script, at least one. -/
def Digits (ds : List Char) : Prop := ds ≠ [] ∧ ∀ c ∈ ds, (decimalDigit? c).isSome

theorem decimalDigit?_of_isDigit {c : Char} (h : c.isDigit) :
    decimalDigit? c = some (c.toNat - '0'.toNat) := by
  have hc : 0x30 ≤ c.toNat ∧ c.toNat < 0x30 + 10 := by
    rw [Char.isDigit_iff_toNat] at h
    exact ⟨h.1, Nat.lt_succ_of_le h.2⟩
  rw [decimalDigit?, decimalZeros, List.find?_cons_of_pos (by simpa using hc)]
  rfl

theorem digits_of_isDigit {ds : List Char} (hne : ds ≠ []) (h : ∀ c ∈ ds, c.isDigit) :
    Digits ds := by
  refine ⟨hne, fun c hc => ?_⟩
  rw [decimalDigit?_of_isDigit (h c hc)]
  rfl

section TakeDecimal

variable {ds : List Char} {acc : ℕ}

theorem takeDecimal_cons {c : Char} {d : ℕ} (cs : List Char) (h : decimalDigit? c = some d) :
    takeDecimal acc (c :: cs) = takeDecimal (10 * acc + d) cs := by
  rw [takeDecimal, h]

theorem takeDecimal_cons_of_none {c : Char} (cs : List Char) (h : decimalDigit? c = none) :
    takeDecimal acc (c :: cs) = (acc, c :: cs) := by
  rw [takeDecimal, h]

theorem takeDecimal_append (rest : List Char) (h : ∀ c ∈ ds, (decimalDigit? c).isSome) :
    takeDecimal acc (ds ++ rest) = takeDecimal (takeDecimal acc ds).1 rest := by
  induction ds generalizing acc with
  | nil => rfl
  | cons c ds ih =>
    rw [List.forall_mem_cons] at h
    obtain ⟨d, hd⟩ := Option.isSome_iff_exists.mp h.1
    rw [List.cons_append, takeDecimal_cons _ hd, takeDecimal_cons _ hd, ih h.2]

/-- What is taken off are digits, and their value does not depend on what follows. -/
theorem exists_digits (acc : ℕ) (s : List Char) :
    ∃ ds, s = ds ++ (takeDecimal acc s).2 ∧ (∀ c ∈ ds, (decimalDigit? c).isSome) ∧
      (takeDecimal acc s).1 = (takeDecimal acc ds).1 := by
  induction s generalizing acc with
  | nil => exact ⟨[], rfl, by simp, rfl⟩
  | cons c s ih =>
    cases hd : decimalDigit? c with
    | none =>
      rw [takeDecimal_cons_of_none s hd]
      exact ⟨[], rfl, by simp, rfl⟩
    | some d =>
      obtain ⟨ds, hs, hds, hvalue⟩ := ih (10 * acc + d)
      rw [takeDecimal_cons s hd]
      refine ⟨c :: ds, congrArg (c :: ·) hs, ?_, by rw [takeDecimal_cons ds hd, hvalue]⟩
      exact List.forall_mem_cons.mpr ⟨by rw [hd]; rfl, hds⟩

theorem takeDecimal_of_isDigit (h : ∀ c ∈ ds, c.isDigit) :
    (takeDecimal acc ds).1 = Nat.ofDigitChars 10 ds acc := by
  induction ds generalizing acc with
  | nil => rfl
  | cons c ds ih =>
    rw [List.forall_mem_cons] at h
    rw [takeDecimal_cons _ (decimalDigit?_of_isDigit h.1), ih h.2, Nat.ofDigitChars_cons]

end TakeDecimal

/-! ### The expressions -/

/-- The digits and the unit, and possibly a newline. -/
def Written (ds : List Char) (unit : Char) (s : List Char) : Prop :=
  s = ds ++ [unit] ∨ s = ds ++ [unit, '\n']

theorem matchUnit_cons {unit c : Char} {cs : List Char} (h : (decimalDigit? c).isSome) :
    matchUnit unit (c :: cs) =
      if (takeDecimal 0 (c :: cs)).2 = [unit] ∨ (takeDecimal 0 (c :: cs)).2 = [unit, '\n'] then
        some (takeDecimal 0 (c :: cs)).1
      else none := by
  rw [matchUnit, if_pos h]

theorem matchUnit_append {unit : Char} {ds rest : List Char} (hunit : decimalDigit? unit = none)
    (hds : Digits ds) (hrest : unit :: rest = [unit] ∨ unit :: rest = [unit, '\n']) :
    matchUnit unit (ds ++ unit :: rest) = some (takeDecimal 0 ds).1 := by
  obtain ⟨hne, hdigits⟩ := hds
  have hvalue : takeDecimal 0 (ds ++ unit :: rest) = ((takeDecimal 0 ds).1, unit :: rest) := by
    rw [takeDecimal_append _ hdigits, takeDecimal_cons_of_none _ hunit]
  cases ds with
  | nil => exact absurd rfl hne
  | cons c ds =>
    rw [List.cons_append] at hvalue ⊢
    rw [matchUnit_cons (hdigits c List.mem_cons_self), hvalue, if_pos hrest]

theorem matchUnit_eq_some_iff {unit : Char} {s : List Char} {n : ℕ}
    (hunit : decimalDigit? unit = none) :
    matchUnit unit s = some n ↔ ∃ ds, Digits ds ∧ Written ds unit s ∧ n = (takeDecimal 0 ds).1 := by
  constructor
  · intro h
    cases s with
    | nil => cases h
    | cons c cs =>
      by_cases hc : (decimalDigit? c).isSome
      · rw [matchUnit_cons hc] at h
        split_ifs at h with hrest
        obtain ⟨ds, hs, hds, hvalue⟩ := exists_digits 0 (c :: cs)
        refine ⟨ds, ⟨?_, hds⟩, ?_, ?_⟩
        · rintro rfl
          have hhead : c = unit := by
            rcases hrest with hrest | hrest <;> rw [hrest] at hs <;> exact (List.cons.inj hs).1
          rw [hhead, hunit] at hc
          cases hc
        · rcases hrest with hrest | hrest
          · rw [hrest] at hs
            exact .inl hs
          · rw [hrest] at hs
            exact .inr hs
        · rw [← Option.some.inj h, hvalue]
      · rw [matchUnit, if_neg hc] at h
        cases h
  · rintro ⟨ds, hds, rfl | rfl, rfl⟩
    · exact matchUnit_append hunit hds (.inl rfl)
    · exact matchUnit_append hunit hds (.inr rfl)

/-- Only one of the expressions matches. -/
theorem matchUnit_unique {unit unit' : Char} {s : List Char} {n n' : ℕ}
    (h : matchUnit unit s = some n) (h' : matchUnit unit' s = some n') : unit = unit' := by
  cases s with
  | nil => cases h
  | cons c cs =>
    by_cases hc : (decimalDigit? c).isSome
    · rw [matchUnit_cons hc] at h h'
      split_ifs at h h' with hrest hrest'
      rcases hrest with hrest | hrest <;> rcases hrest' with hrest' | hrest' <;>
        exact (List.cons.inj (hrest.symm.trans hrest')).1
    · rw [matchUnit, if_neg hc] at h
      cases h

theorem matchUnits_eq_some_iff {s : List Char} {v : ℕ} {pairs : List (Char × ℕ)}
    (hpairs : (pairs.map Prod.fst).Nodup) :
    matchUnits s pairs = some v ↔
      ∃ unit sec n, (unit, sec) ∈ pairs ∧ matchUnit unit s = some n ∧ v = n * sec := by
  induction pairs with
  | nil => simp [matchUnits]
  | cons pair pairs ih =>
    obtain ⟨unit, sec⟩ := pair
    rw [List.map_cons, List.nodup_cons] at hpairs
    rw [matchUnits]
    cases h : matchUnit unit s with
    | some n =>
      constructor
      · rintro ⟨⟩
        exact ⟨unit, sec, n, List.mem_cons_self, h, rfl⟩
      · rintro ⟨unit', sec', n', hmem, h', rfl⟩
        cases matchUnit_unique h h'
        cases h.symm.trans h'
        rcases List.mem_cons.mp hmem with heq | hmem
        · cases heq
          rfl
        · exact absurd (List.mem_map_of_mem hmem) hpairs.1
    | none =>
      refine (ih hpairs.2).trans ⟨?_, ?_⟩
      · rintro ⟨unit', sec', n', hmem, h'⟩
        exact ⟨unit', sec', n', List.mem_cons_of_mem _ hmem, h'⟩
      · rintro ⟨unit', sec', n', hmem, h', hv⟩
        rcases List.mem_cons.mp hmem with heq | hmem
        · cases heq
          cases h.symm.trans h'
        · exact ⟨unit', sec', n', hmem, h', hv⟩

/-! ### `to_seconds` -/

theorem decimalDigit?_unit {unit : Char} {sec : ℕ} (h : (unit, sec) ∈ unitSecPairs) :
    decimalDigit? unit = none := by
  have hall : ∀ p ∈ unitSecPairs, decimalDigit? p.1 = none := by decide
  exact hall _ h

theorem matchUnits_unitSecPairs {s : List Char} {v : ℕ} :
    matchUnits s unitSecPairs = some v ↔ ∃ ds unit sec, (unit, sec) ∈ unitSecPairs ∧ Digits ds ∧
      Written ds unit s ∧ v = (takeDecimal 0 ds).1 * sec := by
  rw [matchUnits_eq_some_iff (by decide)]
  constructor
  · rintro ⟨unit, sec, n, hmem, h, rfl⟩
    obtain ⟨ds, hds, hs, rfl⟩ := (matchUnit_eq_some_iff (decimalDigit?_unit hmem)).mp h
    exact ⟨ds, unit, sec, hmem, hds, hs, rfl⟩
  · rintro ⟨ds, unit, sec, hmem, hds, hs, rfl⟩
    exact ⟨unit, sec, _, hmem,
      (matchUnit_eq_some_iff (decimalDigit?_unit hmem)).mpr ⟨ds, hds, hs, rfl⟩, rfl⟩

theorem toSeconds_of_matches {s : String} {v : ℕ} (hs : s ≠ "0")
    (h : matchUnits s.toList unitSecPairs = some v) : toSeconds (some s) = .ok v := by
  simp only [toSeconds, if_neg hs, h]

theorem toSeconds_of_not_matches {s : String} (hs : s ≠ "0")
    (h : matchUnits s.toList unitSecPairs = none) :
    toSeconds (some s) = .error ⟨.timeStrParseTypeException, s!"Can not parse {s}"⟩ := by
  simp only [toSeconds, if_neg hs, h]

/-- What `to_seconds` accepts, and the value. -/
theorem toSeconds_eq_ok_iff {s : String} {v : ℕ} :
    toSeconds (some s) = .ok v ↔ s = "0" ∧ v = 0 ∨ ∃ ds unit sec, (unit, sec) ∈ unitSecPairs ∧
      Digits ds ∧ Written ds unit s.toList ∧ v = (takeDecimal 0 ds).1 * sec := by
  rw [← matchUnits_unitSecPairs]
  by_cases h : s = "0"
  · subst h
    have hzero : toSeconds (some "0") = .ok 0 := rfl
    have hnone : matchUnits "0".toList unitSecPairs = none := by decide
    rw [hzero, hnone, Except.ok.injEq]
    simp [eq_comm]
  · cases hs : matchUnits s.toList unitSecPairs with
    | none => simp [toSeconds_of_not_matches h hs, h]
    | some n => simp [toSeconds_of_matches h hs, h]

/-- Everything else is refused. -/
theorem toSeconds_eq_error {s : String} (h : ∀ v, toSeconds (some s) ≠ .ok v) :
    toSeconds (some s) = .error ⟨.timeStrParseTypeException, s!"Can not parse {s}"⟩ := by
  by_cases hs : s = "0"
  · subst hs
    exact absurd rfl (h 0)
  · cases hmatch : matchUnits s.toList unitSecPairs with
    | none => exact toSeconds_of_not_matches hs hmatch
    | some v => exact absurd (toSeconds_of_matches hs hmatch) (h v)

/-! ### What is documented -/

/-- Digits from 0 to 9 and one unit, or a zero. -/
inductive Duration : List Char → ℕ → Prop
  | zero : Duration ['0'] 0
  | digits {ds : List Char} {unit : Char} {sec : ℕ} (ne_nil : ds ≠ [])
      (isDigit : ∀ c ∈ ds, c.isDigit)
      (mem : (unit, sec) ∈ [('s', 1), ('m', 60), ('h', 3600), ('d', 86400)]) :
      Duration (ds ++ [unit]) (Nat.ofDigitChars 10 ds 0 * sec)

/-- The durations, with their values, are what is accepted. -/
structure Parsed (s : String) : Prop where
  value : ∀ v, toSeconds (some s) = .ok v ↔ Duration s.toList v
  refused : (∀ v, ¬ Duration s.toList v) →
    ∃ e, toSeconds (some s) = .error e ∧ e.kind = .timeStrParseTypeException

/-- What the expressions match besides: a newline after the unit, or a digit of another
script. -/
inductive Lenient : List Char → Prop
  | newline {ds : List Char} {unit : Char} (digits : Digits ds)
      (mem : unit ∈ ['s', 'm', 'h', 'd']) : Lenient (ds ++ [unit, '\n'])
  | script {ds : List Char} {unit : Char} (digits : Digits ds) (mem : unit ∈ ['s', 'm', 'h', 'd'])
      (foreign : ∃ c ∈ ds, ¬ c.isDigit) : Lenient (ds ++ [unit])

theorem mem_units {unit : Char} :
    unit ∈ ['s', 'm', 'h', 'd'] ↔ ∃ sec, (unit, sec) ∈ unitSecPairs := by
  simp [unitSecPairs, exists_or]

theorem Duration.accepted {s : String} {v : ℕ} (h : Duration s.toList v) :
    toSeconds (some s) = .ok v := by
  rw [toSeconds_eq_ok_iff]
  generalize hs : s.toList = cs at h ⊢
  cases h with
  | zero => exact .inl ⟨String.toList_injective hs, rfl⟩
  | digits hne hdigit hmem =>
    refine .inr ⟨_, _, _, hmem, digits_of_isDigit hne hdigit, .inl rfl, ?_⟩
    rw [takeDecimal_of_isDigit hdigit]

theorem Lenient.accepted {s : String} (h : Lenient s.toList) : ∃ v, toSeconds (some s) = .ok v := by
  simp only [toSeconds_eq_ok_iff]
  generalize s.toList = cs at h ⊢
  cases h with
  | newline hdigits hunit =>
    obtain ⟨sec, hmem⟩ := mem_units.mp hunit
    exact ⟨_, .inr ⟨_, _, sec, hmem, hdigits, .inr rfl, rfl⟩⟩
  | script hdigits hunit =>
    obtain ⟨sec, hmem⟩ := mem_units.mp hunit
    exact ⟨_, .inr ⟨_, _, sec, hmem, hdigits, .inl rfl, rfl⟩⟩

theorem Duration.eq_append {s : List Char} {v : ℕ} (h : Duration s v) :
    s = ['0'] ∨ ∃ ds unit, s = ds ++ [unit] ∧ (∀ c ∈ ds, c.isDigit) ∧
      unit ∈ ['s', 'm', 'h', 'd'] := by
  cases h with
  | zero => exact .inl rfl
  | digits _ hdigit hmem => exact .inr ⟨_, _, rfl, hdigit, mem_units.mpr ⟨_, hmem⟩⟩

theorem Lenient.not_duration {s : List Char} (h : Lenient s) (v : ℕ) : ¬ Duration s v := by
  intro hduration
  obtain hzero | ⟨ds, unit, rfl, hdigit, hmem⟩ := hduration.eq_append
  · subst hzero
    generalize hs : ['0'] = s at h
    cases h with
    | newline hdigits => simpa using congrArg List.length hs
    | script hdigits => exact hdigits.1 (by simpa using congrArg List.length hs)
  · generalize hs : ds ++ [unit] = s at h
    cases h with
    | newline =>
      have hlast : some unit = some '\n' := by simpa using congrArg List.getLast? hs
      cases hlast
      exact absurd hmem (by decide)
    | script _ _ hforeign =>
      obtain ⟨rfl, -⟩ := List.append_inj' hs rfl
      obtain ⟨c, hc, hforeign⟩ := hforeign
      exact hforeign (hdigit c hc)

theorem duration_of_accepted {s : String} {v : ℕ} (h : toSeconds (some s) = .ok v)
    (hlenient : ¬ Lenient s.toList) : Duration s.toList v := by
  rw [toSeconds_eq_ok_iff] at h
  rcases h with ⟨rfl, rfl⟩ | ⟨ds, unit, sec, hmem, hdigits, hs | hs, rfl⟩
  · exact .zero
  · rw [hs] at hlenient ⊢
    have hdigit : ∀ c ∈ ds, c.isDigit := by
      by_contra hforeign
      push Not at hforeign
      exact hlenient (.script hdigits (mem_units.mpr ⟨sec, hmem⟩) hforeign)
    rw [takeDecimal_of_isDigit hdigit]
    exact .digits hdigits.1 hdigit hmem
  · rw [hs] at hlenient
    exact absurd (.newline hdigits (mem_units.mpr ⟨sec, hmem⟩)) hlenient

/-- `to_seconds` accepts the documented durations and nothing else, up to digits of other
scripts and a newline at the end. -/
theorem toSeconds_parsed_iff (s : String) : Parsed s ↔ ¬ Lenient s.toList := by
  constructor
  · intro h hlenient
    obtain ⟨v, hv⟩ := hlenient.accepted
    exact hlenient.not_duration v ((h.value v).mp hv)
  · intro hlenient
    have hvalue : ∀ v, toSeconds (some s) = .ok v ↔ Duration s.toList v := fun v =>
      ⟨fun h => duration_of_accepted h hlenient, Duration.accepted⟩
    refine ⟨hvalue, fun hnone => ⟨_, toSeconds_eq_error fun v h => hnone v ?_, rfl⟩⟩
    exact (hvalue v).mp h

/-- A digit of the Arabic script, and a newline at the end. -/
theorem toSeconds_not_parsed : ¬ Parsed "\u0663s" ∧ ¬ Parsed "10s\n" := by
  have hscript : Lenient (['\u0663'] ++ ['s']) :=
    .script ⟨List.cons_ne_nil _ _, List.forall_mem_singleton.mpr rfl⟩ List.mem_cons_self
      ⟨_, List.mem_singleton_self _, Bool.false_ne_true⟩
  have hnewline : Lenient (['1', '0'] ++ ['s', '\n']) :=
    .newline (digits_of_isDigit (List.cons_ne_nil _ _) (by simp [Char.isDigit])) List.mem_cons_self
  constructor
  · intro h
    have hthree : toSeconds (some "\u0663s") = .ok 3 := by rfl
    exact hscript.not_duration 3 ((h.value 3).mp hthree)
  · intro h
    have hten : toSeconds (some "10s\n") = .ok 10 := by rfl
    exact hnewline.not_duration 10 ((h.value 10).mp hten)

end Lobbyboy.Utils
