import Mathlib.Algebra.Order.Group.Nat
import Mathlib.Data.Nat.Notation
import Mathlib.Data.UInt

/-! Base64 in its standard form and as a lenient decoder reads it, which drops what is not
of the alphabet and stops once a padding is complete. Of a word in the standard form
followed by something else, the lenient decoder reads the word alone if it is padded, and
goes on into what follows if it is not. -/

namespace Lobbyboy.Foundation.Base64

abbrev Bytes := List UInt8

/-- The six bits of a character of the alphabet. -/
def value? (c : Char) : Option ℕ :=
  if 'A' ≤ c ∧ c ≤ 'Z' then some (c.toNat - 'A'.toNat)
  else if 'a' ≤ c ∧ c ≤ 'z' then some (c.toNat - 'a'.toNat + 26)
  else if '0' ≤ c ∧ c ≤ '9' then some (c.toNat - '0'.toNat + 52)
  else if c = '+' then some 62
  else if c = '/' then some 63
  else none

/-- The whole bytes of up to four values. -/
def bytesOf : List ℕ → Bytes
  | [a, b] => [.ofNat (4 * a + b / 16)]
  | [a, b, c] => [.ofNat (4 * a + b / 16), .ofNat (16 * (b % 16) + c / 4)]
  | [a, b, c, d] =>
    [.ofNat (4 * a + b / 16), .ofNat (16 * (b % 16) + c / 4), .ofNat (64 * (c % 4) + d)]
  | _ => []

/-! ### Standard form -/

/-- Groups of four characters of the alphabet, the last of which may be padded. -/
def decodeStandard : List Char → Option Bytes
  | [] => some []
  | [a, b, '=', '='] => do return bytesOf [← value? a, ← value? b]
  | [a, b, c, '='] => do return bytesOf [← value? a, ← value? b, ← value? c]
  | a :: b :: c :: d :: cs => do
    return bytesOf [← value? a, ← value? b, ← value? c, ← value? d] ++ (← decodeStandard cs)
  | _ => none

/-! ### Lenient reading -/

/-- With the values of the group that is not complete and the padding after them. -/
def decodeFrom (quad : List ℕ) (pads : ℕ) : List Char → Option Bytes
  | [] => if quad = [] then some [] else none
  | c :: cs =>
    if c = '=' then
      if 2 ≤ quad.length then
        if 4 ≤ quad.length + (pads + 1) then some (bytesOf quad) else decodeFrom quad (pads + 1) cs
      else decodeFrom quad pads cs
    else
      match value? c with
      | none => decodeFrom quad pads cs
      | some v =>
        if quad.length = 3 then (bytesOf (quad ++ [v]) ++ ·) <$> decodeFrom [] 0 cs
        else decodeFrom (quad ++ [v]) 0 cs

def decodeLenient (s : List Char) : Option Bytes := decodeFrom [] 0 s

variable {a b c d : Char} {s w rest : List Char} {bs : Bytes}

theorem value?_pad : value? '=' = none := by decide

theorem ne_pad_of_value? {v : ℕ} (h : value? c = some v) : c ≠ '=' := by
  rintro rfl
  rw [value?_pad] at h
  cases h

/-- From '+' to 'z'. -/
theorem toNat_of_value? {v : ℕ} (h : value? c = some v) : 43 ≤ c.toNat ∧ c.toNat ≤ 122 := by
  simp only [value?, Char.le_def, UInt32.le_iff_toNat_le] at h
  change 43 ≤ c.val.toNat ∧ c.val.toNat ≤ 122
  split_ifs at h with hupper hlower hdigit hplus hslash
  · exact ⟨le_trans (by decide) hupper.1, hupper.2.trans (by decide)⟩
  · exact ⟨le_trans (by decide) hlower.1, hlower.2.trans (by decide)⟩
  · exact ⟨le_trans (by decide) hdigit.1, hdigit.2.trans (by decide)⟩
  · subst hplus
    decide
  · subst hslash
    decide

theorem decodeFrom_value {v : ℕ} (h : value? c = some v) (quad : List ℕ) (pads : ℕ) :
    decodeFrom quad pads (c :: s) =
      if quad.length = 3 then (bytesOf (quad ++ [v]) ++ ·) <$> decodeFrom [] 0 s
      else decodeFrom (quad ++ [v]) 0 s := by
  rw [decodeFrom, if_neg (ne_pad_of_value? h), h]

theorem decodeFrom_pad (quad : List ℕ) (pads : ℕ) :
    decodeFrom quad pads ('=' :: s) =
      if 2 ≤ quad.length then
        if 4 ≤ quad.length + (pads + 1) then some (bytesOf quad) else decodeFrom quad (pads + 1) s
      else decodeFrom quad pads s := by
  rw [decodeFrom, if_pos rfl]

/-- Where nothing is of the alphabet, a finished group stays the last. -/
theorem decodeLenient_of_no_value (h : ∀ c ∈ s, value? c = none) : decodeLenient s = some [] := by
  unfold decodeLenient
  induction s with
  | nil => rfl
  | cons c s ih =>
    have hs := ih fun c hc => h c (List.mem_cons_of_mem _ hc)
    rw [decodeFrom, h c List.mem_cons_self]
    split_ifs <;> simp_all

theorem decodeLenient_pad_two {x y : ℕ} (ha : value? a = some x) (hb : value? b = some y) :
    decodeLenient (a :: b :: '=' :: '=' :: rest) = some (bytesOf [x, y]) := by
  simp [decodeLenient, decodeFrom_value ha, decodeFrom_value hb, decodeFrom_pad]

theorem decodeLenient_pad_one {x y z : ℕ} (ha : value? a = some x) (hb : value? b = some y)
    (hc : value? c = some z) :
    decodeLenient (a :: b :: c :: '=' :: rest) = some (bytesOf [x, y, z]) := by
  simp [decodeLenient, decodeFrom_value ha, decodeFrom_value hb, decodeFrom_value hc,
    decodeFrom_pad]

theorem decodeLenient_quad {x y z t : ℕ} (ha : value? a = some x) (hb : value? b = some y)
    (hc : value? c = some z) (hd : value? d = some t) :
    decodeLenient (a :: b :: c :: d :: s) = (bytesOf [x, y, z, t] ++ ·) <$> decodeLenient s := by
  simp [decodeLenient, decodeFrom_value ha, decodeFrom_value hb, decodeFrom_value hc,
    decodeFrom_value hd]

/-- Standard words are built from padded ends by prepending groups of four. -/
theorem decodeStandard_induction {P : List Char → Bytes → Prop} (nil : P [] [])
    (padTwo : ∀ a b x y, value? a = some x → value? b = some y →
      P [a, b, '=', '='] (bytesOf [x, y]))
    (padOne : ∀ a b c x y z, value? a = some x → value? b = some y → value? c = some z →
      P [a, b, c, '='] (bytesOf [x, y, z]))
    (quad : ∀ a b c d x y z t cs bs, value? a = some x → value? b = some y → value? c = some z →
      value? d = some t → P cs bs → P (a :: b :: c :: d :: cs) (bytesOf [x, y, z, t] ++ bs))
    (h : decodeStandard w = some bs) : P w bs := by
  induction w using decodeStandard.induct generalizing bs with
  | case1 =>
    cases h
    exact nil
  | case2 a b =>
    simp only [decodeStandard, Option.bind_eq_bind, Option.bind_eq_some_iff, pure] at h
    obtain ⟨x, hx, y, hy, h⟩ := h
    cases h
    exact padTwo a b x y hx hy
  | case3 a b c hc =>
    simp only [decodeStandard, Option.bind_eq_bind, Option.bind_eq_some_iff, pure] at h
    obtain ⟨x, hx, y, hy, z, hz, h⟩ := h
    cases h
    exact padOne a b c x y z hx hy hz
  | case4 a b c d cs hpads hpad ih =>
    rw [decodeStandard.eq_4 a b c d cs hpads hpad] at h
    simp only [Option.bind_eq_bind, Option.bind_eq_some_iff, pure] at h
    obtain ⟨x, hx, y, hy, z, hz, t, ht, bs', hbs, h⟩ := h
    cases h
    exact quad a b c d x y z t cs bs' hx hy hz ht (ih hbs)
  | case5 w hnil htwo hone hquad =>
    rw [decodeStandard] at h
    · cases h
    all_goals assumption

/-- A word is read as it is; without padding what follows it is read on. -/
theorem decodeLenient_append (h : decodeStandard w = some bs) :
    decodeLenient (w ++ rest) =
      if '=' ∈ w then some bs else (bs ++ ·) <$> decodeLenient rest := by
  refine decodeStandard_induction (P := fun w bs => decodeLenient (w ++ rest) =
    if '=' ∈ w then some bs else (bs ++ ·) <$> decodeLenient rest) ?_ ?_ ?_ ?_ h
  · simp
  · intro a b x y hx hy
    simpa using decodeLenient_pad_two hx hy
  · intro a b c x y z hx hy hz
    simpa using decodeLenient_pad_one hx hy hz
  · intro a b c d x y z t cs bs hx hy hz ht ih
    have hmem : '=' ∈ a :: b :: c :: d :: cs ↔ '=' ∈ cs := by
      simp [(ne_pad_of_value? hx).symm, (ne_pad_of_value? hy).symm, (ne_pad_of_value? hz).symm,
        (ne_pad_of_value? ht).symm]
    rw [List.cons_append, List.cons_append, List.cons_append, List.cons_append,
      decodeLenient_quad hx hy hz ht, ih]
    simp only [hmem]
    split_ifs
    · rfl
    · cases decodeLenient rest <;> simp

theorem mem_of_decodeStandard (h : decodeStandard w = some bs) :
    ∀ c ∈ w, 43 ≤ c.toNat ∧ c.toNat ≤ 122 := by
  refine decodeStandard_induction (P := fun w _ => ∀ c ∈ w, 43 ≤ c.toNat ∧ c.toNat ≤ 122)
    ?_ ?_ ?_ ?_ h
  · simp
  · intro a b x y hx hy
    simp [toNat_of_value? hx, toNat_of_value? hy]
  · intro a b c x y z hx hy hz
    simp [toNat_of_value? hx, toNat_of_value? hy, toNat_of_value? hz]
  · intro a b c d x y z t cs bs hx hy hz ht ih
    simpa [toNat_of_value? hx, toNat_of_value? hy, toNat_of_value? hz, toNat_of_value? ht] using ih

/-- The end of a line that does not touch the word before it. -/
theorem decodeLenient_append_of_no_value (h : decodeStandard w = some bs)
    (hrest : ∀ c ∈ rest, value? c = none) : decodeLenient (w ++ rest) = some bs := by
  rw [decodeLenient_append h, decodeLenient_of_no_value hrest]
  simp

example : decodeLenient "SSE= x".toList = some [73, 33] := by decide

example : decodeLenient "SSEh x".toList = none := by decide

end Lobbyboy.Foundation.Base64
