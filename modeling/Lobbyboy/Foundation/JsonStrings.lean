import Lobbyboy.Foundation.Json
import Mathlib.Tactic.IntervalCases

/-! Reading back what was written, for the leaves of JSON: escaped strings and
integers, and what text may follow them without changing how they are read. -/

namespace Lobbyboy.Foundation.Json

/-! ### Escapes -/

theorem hexValue_hexDigit {n : ℕ} (h : n < 16) : hexValue (hexDigit n) = some n := by
  interval_cases n <;> rfl

theorem hexUnit_digits {n : ℕ} (h : n < 65536) :
    hexUnit (hexDigit (n / 4096 % 16)) (hexDigit (n / 256 % 16)) (hexDigit (n / 16 % 16))
      (hexDigit (n % 16)) = some n := by
  have hd : ∀ m : ℕ, hexValue (hexDigit (m % 16)) = some (m % 16) :=
    fun m => hexValue_hexDigit (Nat.mod_lt m (by omega))
  simp only [hexUnit, hd, Option.bind_eq_bind, Option.bind_some, Option.pure_def, Option.some.injEq]
  omega

/-! One equation for each way the string scanner can take a step. -/

theorem scanString_quote (r : List Char) : scanString ('"' :: r) = some ([], r) := by
  rw [scanString.eq_def]; rfl

theorem scanString_plain {c : Char} (hq : c ≠ '"') (hb : c ≠ '\\') (hc : 32 ≤ c.toNat)
    (r : List Char) : scanString (c :: r) = (scanString r).map fun p => (c :: p.1, p.2) := by
  rw [scanString.eq_def]
  simp [hq, hb, Nat.not_lt.mpr hc]

theorem scanString_escape {e c : Char} (hu : e ≠ 'u') (he : unescape e = some c) (r : List Char) :
    scanString ('\\' :: e :: r) = (scanString r).map fun p => (c :: p.1, p.2) := by
  rw [scanString.eq_def]
  simp [hu, he]

theorem scanString_unit {a b c d : Char} {n : ℕ} (hn : hexUnit a b c d = some n)
    (hh : isHigh n = false) (hl : isLow n = false) (r : List Char) :
    scanString ('\\' :: 'u' :: a :: b :: c :: d :: r) =
      (scanString r).map fun p => (Char.ofNat n :: p.1, p.2) := by
  rw [scanString.eq_def]
  simp [hn, hh, hl]

theorem scanString_pair {a b c d a' b' c' d' : Char} {n m : ℕ} (hn : hexUnit a b c d = some n)
    (hm : hexUnit a' b' c' d' = some m) (hh : isHigh n = true) (hl : isLow m = true)
    (r : List Char) :
    scanString ('\\' :: 'u' :: a :: b :: c :: d :: '\\' :: 'u' :: a' :: b' :: c' :: d' :: r) =
      (scanString r).map fun p =>
        (Char.ofNat (65536 + (n - 55296) * 1024 + (m - 56320)) :: p.1, p.2) := by
  rw [scanString.eq_def]
  simp [hn, hm, hh, hl]

/-- A character of the basic plane is never a surrogate. -/
theorem scanString_escapeUnit {c : Char} (h : c.toNat < 65536) (r : List Char) :
    scanString (escapeUnit c.toNat ++ r) = (scanString r).map fun p => (c :: p.1, p.2) := by
  have hv : c.toNat < 55296 ∨ 57343 < c.toNat ∧ c.toNat < 1114112 := c.valid
  have hh : isHigh c.toNat = false := by simp [isHigh]; omega
  have hl : isLow c.toNat = false := by simp [isLow]; omega
  have hs := scanString_unit (hexUnit_digits h) hh hl r
  rwa [Char.ofNat_toNat] at hs

/-- A character beyond it is the pair's two halves put together again. -/
theorem scanString_escapePair {c : Char} (h : 65536 ≤ c.toNat) (r : List Char) :
    scanString (escapeUnit (55296 + (c.toNat - 65536) / 1024) ++
        (escapeUnit (56320 + (c.toNat - 65536) % 1024) ++ r)) =
      (scanString r).map fun p => (c :: p.1, p.2) := by
  have hv : c.toNat < 55296 ∨ 57343 < c.toNat ∧ c.toNat < 1114112 := c.valid
  obtain ⟨a, ha⟩ : ∃ a, a = (c.toNat - 65536) / 1024 := ⟨_, rfl⟩
  obtain ⟨b, hb⟩ : ∃ b, b = (c.toNat - 65536) % 1024 := ⟨_, rfl⟩
  have hh : isHigh (55296 + a) = true := by simp [isHigh]; omega
  have hl : isLow (56320 + b) = true := by simp [isLow]; omega
  have hc : 65536 + (55296 + a - 55296) * 1024 + (56320 + b - 56320) = c.toNat := by omega
  have hs := scanString_pair (hexUnit_digits (n := 55296 + a) (by omega))
    (hexUnit_digits (n := 56320 + b) (by omega)) hh hl r
  rw [hc, Char.ofNat_toNat] at hs
  rwa [← ha, ← hb]

theorem scanString_escapeChar (c : Char) (r : List Char) :
    scanString (escapeChar c ++ r) = (scanString r).map fun p => (c :: p.1, p.2) := by
  unfold escapeChar
  split_ifs with h₁ h₂ h₃ h₄ h₅ h₆ h₇ h₈ h₉
  · subst h₁; exact scanString_escape (by decide) rfl r
  · subst h₂; exact scanString_escape (by decide) rfl r
  · subst h₃; exact scanString_escape (by decide) rfl r
  · subst h₄; exact scanString_escape (by decide) rfl r
  · subst h₅; exact scanString_escape (by decide) rfl r
  · subst h₆; exact scanString_escape (by decide) rfl r
  · subst h₇; exact scanString_escape (by decide) rfl r
  · exact scanString_plain h₁ h₂ h₈.1 r
  · exact scanString_escapeUnit h₉ r
  · rw [List.append_assoc]
    exact scanString_escapePair (by omega) r

theorem scanString_escapeChars (cs r : List Char) :
    scanString (escapeChars cs ++ '"' :: r) = some (cs, r) := by
  induction cs with
  | nil => exact scanString_quote r
  | cons c cs ih => rw [escapeChars, List.append_assoc, scanString_escapeChar, ih]; rfl

/-- The scanner behind the opening quote reads a written string back. -/
theorem scanString_renderString (s : String) (r : List Char) :
    ∃ t, renderString s ++ r = '"' :: t ∧ scanString t = some (s.toList, r) :=
  ⟨escapeChars s.toList ++ '"' :: r, by simp [renderString], scanString_escapeChars _ _⟩

/-- Text after the closing quote does not change what was scanned. -/
theorem scanString_append {p s r : List Char} (h : scanString p = some (s, r)) (q : List Char) :
    scanString (p ++ q) = some (s, r ++ q) := by
  fun_induction scanString p generalizing s r with
  | case2 r' => cases h; exact scanString_quote _
  | case6 a b c d n hn hh b' u' a' b' c' d' r' hbu m hm hl _ ih =>
    obtain ⟨⟨t, r''⟩, ht, he⟩ := Option.map_eq_some_iff.mp h
    obtain ⟨rfl, rfl⟩ := hbu
    cases he
    simp only [List.cons_append]
    rw [scanString_pair hn hm hh hl, ih ht]
    rfl
  | case11 a b c d r' n hn hh hl _ ih =>
    obtain ⟨⟨t, r''⟩, ht, he⟩ := Option.map_eq_some_iff.mp h
    cases he
    simp only [List.cons_append]
    rw [scanString_unit hn (by simpa using hh) (by simpa using hl), ih ht]
    rfl
  | case14 e r' hu c he' _ ih =>
    obtain ⟨⟨t, r''⟩, ht, he⟩ := Option.map_eq_some_iff.mp h
    cases he
    simp only [List.cons_append]
    rw [scanString_escape hu he', ih ht]
    rfl
  | case16 c r' hq hb hc ih =>
    obtain ⟨⟨t, r''⟩, ht, he⟩ := Option.map_eq_some_iff.mp h
    cases he
    rw [List.cons_append, scanString_plain hq hb (by omega), ih ht]
    rfl
  | _ => cases h

/-! ### Numbers -/

/-- A character that can continue a number. -/
def numberChar (c : Char) : Bool := c.isDigit || c = '.' || c = 'e' || c = 'E'

/-- The text stops a number: it does not begin with a character that continues one. -/
def Stops (r : List Char) : Prop := ∀ c ∈ r.head?, numberChar c = false

theorem stops_nil : Stops [] := by simp [Stops]

theorem stops_cons {c : Char} {r : List Char} : Stops (c :: r) ↔ numberChar c = false := by
  simp [Stops]

theorem scanDigits_of_digits {ds r : List Char} (hd : ∀ c ∈ ds, c.isDigit = true) (hr : Stops r) :
    scanDigits (ds ++ r) = (ds, r) := by
  induction ds with
  | nil =>
    cases r with
    | nil => rfl
    | cons c r =>
      have hc : c.isDigit = false := by
        have := stops_cons.mp hr
        simp only [numberChar, Bool.or_eq_false_iff] at this
        exact this.1.1.1
      simp [scanDigits, hc]
  | cons c ds ih =>
    rw [List.cons_append, scanDigits, ih fun d hm => hd d (by simp [hm])]
    simp [hd c (by simp)]

theorem scanFraction_of_stops {r : List Char} (hr : Stops r) : scanFraction r = ([], r) := by
  match r with
  | [] => rfl
  | [c] => rfl
  | c :: d :: cs =>
    have hc := stops_cons.mp hr
    simp only [numberChar, Bool.or_eq_false_iff, decide_eq_false_iff_not] at hc
    simp [scanFraction, hc.1.1.2]

theorem scanExponent_of_stops {r : List Char} (hr : Stops r) : scanExponent r = ([], r) := by
  match r with
  | [] => rfl
  | c :: cs =>
    have hc := stops_cons.mp hr
    simp only [numberChar, Bool.or_eq_false_iff, decide_eq_false_iff_not] at hc
    simp [scanExponent, hc.1.2, hc.2]

theorem head_toDigits_ne_zero {n : ℕ} (hn : 0 < n) : (Nat.toDigits 10 n).head? ≠ some '0' := by
  induction n using Nat.strongRecOn with
  | ind n ih =>
    by_cases h : n < 10
    · rw [Nat.toDigits_of_lt_base h]
      interval_cases n <;> decide
    · rw [Nat.toDigits_of_base_le (by omega) (by omega), List.head?_append]
      have hp := ih (n / 10) (by omega) (by omega)
      cases he : (Nat.toDigits 10 (n / 10)).head? with
      | none => exact absurd (List.head?_eq_none_iff.mp he) Nat.toDigits_ne_nil
      | some c => rw [he] at hp; exact hp

theorem scanWhole_toDigits (n : ℕ) {r : List Char} (hr : Stops r) :
    scanWhole (Nat.toDigits 10 n ++ r) = some (Nat.toDigits 10 n, r) := by
  have hd : ∀ c ∈ Nat.toDigits 10 n, c.isDigit = true :=
    fun c hc => Nat.isDigit_of_mem_toDigits (by omega) (by omega) hc
  by_cases hn : n = 0
  · subst hn; rfl
  · have hz := head_toDigits_ne_zero (Nat.pos_of_ne_zero hn)
    cases hs : Nat.toDigits 10 n with
    | nil => exact absurd hs Nat.toDigits_ne_nil
    | cons c cs =>
      rw [hs] at hz hd
      have hc : c ≠ '0' := by simpa using hz
      rw [List.cons_append, scanWhole, ← List.cons_append, scanDigits_of_digits hd hr]
      simp [hc, hd c (by simp)]

theorem scanUnsigned_toDigits (neg : Bool) (n : ℕ) {r : List Char} (hr : Stops r) :
    scanUnsigned neg (Nat.toDigits 10 n ++ r) = some (.int (if neg then -n else n), r) := by
  simp [scanUnsigned, scanWhole_toDigits n hr, scanFraction_of_stops hr, scanExponent_of_stops hr,
    Nat.ofDigitChars_ten_toDigits]

/-! Text behind a number does not change it if the number is already stopped, or if the
text stops it. -/

theorem scanDigits_of_stops {r : List Char} (hr : Stops r) : scanDigits r = ([], r) := by
  have hd : ∀ c ∈ ([] : List Char), c.isDigit = true := by simp
  exact scanDigits_of_digits hd hr

theorem scanDigits_append {q : List Char} : ∀ {p ds r : List Char}, scanDigits p = (ds, r) →
    (r = [] → Stops q) → scanDigits (p ++ q) = (ds, r ++ q)
  | [], ds, r, h, hr => by
    cases h
    exact scanDigits_of_stops (hr rfl)
  | c :: p, ds, r, h, hr => by
    rw [scanDigits] at h
    rw [List.cons_append, scanDigits]
    split_ifs at h ⊢ with hc
    · cases hp : scanDigits p with
      | mk ds' r' =>
        rw [hp] at h
        cases h
        simp [scanDigits_append hp hr]
    · cases h; rfl

theorem scanWhole_append {p ds r q : List Char} (h : scanWhole p = some (ds, r))
    (hr : r = [] → Stops q) : scanWhole (p ++ q) = some (ds, r ++ q) := by
  cases p with
  | nil => cases h
  | cons c p =>
    rw [scanWhole] at h
    rw [List.cons_append, scanWhole, ← List.cons_append]
    split_ifs at h ⊢ with h0 hd
    · cases h; rfl
    · exact congrArg some (scanDigits_append (Option.some.inj h) hr)

theorem scanFraction_append {p f r q : List Char} (h : scanFraction p = (f, r))
    (hr : r = [] → Stops q) (hs : f = [] → r.head? ≠ some '.') :
    scanFraction (p ++ q) = (f, r ++ q) := by
  match p with
  | [] =>
    cases h
    exact scanFraction_of_stops (hr rfl)
  | [c] =>
    cases h
    have hc : c ≠ '.' := by simpa using hs rfl
    cases q with
    | nil => rfl
    | cons d q => simp [scanFraction, hc]
  | c :: d :: p =>
    simp only [scanFraction, List.cons_append] at h ⊢
    split_ifs at h ⊢ with hc
    · cases hp : scanDigits (d :: p) with
      | mk ds r' =>
        rw [hp] at h
        cases h
        have := scanDigits_append hp hr
        rw [List.cons_append] at this
        rw [this]
    · cases h; rfl

theorem scanSign_append {p : List Char} (hp : p ≠ []) (q : List Char) :
    scanSign (p ++ q) = ((scanSign p).1, (scanSign p).2 ++ q) := by
  cases p with
  | nil => exact absurd rfl hp
  | cons c p =>
    rw [List.cons_append, scanSign, scanSign]
    split_ifs <;> rfl

theorem scanExponent_append {p e r q : List Char} (h : scanExponent p = (e, r))
    (hr : r = [] → Stops q) (hs : Stops r) : scanExponent (p ++ q) = (e, r ++ q) := by
  cases p with
  | nil =>
    cases h
    exact scanExponent_of_stops (hr rfl)
  | cons c p =>
    rw [scanExponent] at h
    rw [List.cons_append, scanExponent]
    split_ifs at h ⊢ with hc
    · simp only at h ⊢
      cases hd : scanDigits (scanSign p).2 with
      | mk ds r' =>
        rw [hd] at h
        split_ifs at h with he
        · -- nothing was taken, so the rest would begin with the exponent letter
          cases h
          have := stops_cons.mp hs
          rcases hc with rfl | rfl <;> simp [numberChar] at this
        · cases h
          have hp : p ≠ [] := by
            rintro rfl
            cases hd
            exact he rfl
          rw [scanSign_append hp, scanDigits_append hd hr]
          simp [he]
    · cases h; rfl

/-- What an exponent leaves, if it stops a number, was not preceded by a bare point. -/
theorem head_ne_point_of_scanExponent {p e r : List Char} (h : scanExponent p = (e, r))
    (hs : Stops r) : p.head? ≠ some '.' := by
  cases p with
  | nil => simp
  | cons c p =>
    intro hc
    obtain rfl : c = '.' := by simpa using hc
    cases h
    have := stops_cons.mp hs
    simp [numberChar] at this

theorem scanUnsigned_append {neg : Bool} {p r q : List Char} {v : Json}
    (h : scanUnsigned neg p = some (v, r)) (hr : r = [] → Stops q) (hs : Stops r) :
    scanUnsigned neg (p ++ q) = some (v, r ++ q) := by
  cases hw : scanWhole p with
  | none => simp [scanUnsigned, hw] at h
  | some w =>
    obtain ⟨ds, r₀⟩ := w
    cases hf : scanFraction r₀ with
    | mk f r₁ =>
      cases he : scanExponent r₁ with
      | mk e r₂ =>
        have hr₂ : r₂ = r := by
          simp only [scanUnsigned, hw, hf, he, Option.bind_eq_bind, Option.bind_some,
            Option.pure_def] at h
          split_ifs at h <;> cases h <;> rfl
        subst hr₂
        have hr₁ : r₁ = [] → Stops q := by rintro rfl; cases he; exact hr rfl
        have hr₀ : r₀ = [] → Stops q := by rintro rfl; cases hf; exact hr₁ rfl
        have hw' := scanWhole_append hw hr₀
        have hf' := scanFraction_append hf hr₁ fun _ => head_ne_point_of_scanExponent he hs
        have he' := scanExponent_append he hr hs
        simp only [scanUnsigned, hw, hf, he, hw', hf', he', Option.bind_eq_bind, Option.bind_some,
          Option.pure_def] at h ⊢
        split_ifs at h ⊢ <;> cases h <;> rfl

end Lobbyboy.Foundation.Json
