import Lobbyboy.Foundation.JsonStrings

/-! The two facts a file format rests on. A written value is read back as it was
(`loads_dumps`), and a written list that was cut short is not readable at all
(`loads_prefix`): its closing bracket is its last character. -/

namespace Lobbyboy.Foundation.Json

mutual

/-- No float anywhere in the value. -/
def floatFree : Json → Bool
  | .float _ => false
  | .arr xs => floatFreeItems xs
  | .obj ms => floatFreeMembers ms
  | _ => true

def floatFreeItems : List Json → Bool
  | [] => true
  | x :: xs => floatFree x && floatFreeItems xs

def floatFreeMembers : List (String × Json) → Bool
  | [] => true
  | (_, x) :: ms => floatFree x && floatFreeMembers ms

end

/-- The reader takes the text for a float. -/
def isFloatLiteral : List Char → Bool
  | [] => false
  | c :: cs =>
    match scanAtom c cs with
    | some (.float l, []) => l = c :: cs
    | _ => false

example : isFloatLiteral "1e-05".toList = true := by decide

mutual

/-- Every float has the literal of one. -/
def written : Json → Bool
  | .float l => isFloatLiteral l
  | .arr xs => writtenItems xs
  | .obj ms => writtenMembers ms
  | _ => true

def writtenItems : List Json → Bool
  | [] => true
  | x :: xs => written x && writtenItems xs

def writtenMembers : List (String × Json) → Bool
  | [] => true
  | (_, x) :: ms => written x && writtenMembers ms

end

mutual

theorem written_of_floatFree : ∀ {v : Json}, floatFree v = true → written v = true
  | .float l, h => by simp [floatFree] at h
  | .arr xs, h => writtenItems_of_floatFree (show floatFreeItems xs = true from h)
  | .obj ms, h => writtenMembers_of_floatFree (show floatFreeMembers ms = true from h)
  | .null, _ | .bool _, _ | .int _, _ | .str _, _ => rfl

theorem writtenItems_of_floatFree : ∀ {xs : List Json}, floatFreeItems xs = true →
    writtenItems xs = true
  | [], _ => rfl
  | x :: xs, h => by
    obtain ⟨hx, hxs⟩ := Bool.and_eq_true_iff.mp h
    exact Bool.and_eq_true_iff.mpr ⟨written_of_floatFree hx, writtenItems_of_floatFree hxs⟩

theorem writtenMembers_of_floatFree : ∀ {ms : List (String × Json)}, floatFreeMembers ms = true →
    writtenMembers ms = true
  | [], _ => rfl
  | (_, x) :: ms, h => by
    obtain ⟨hx, hms⟩ := Bool.and_eq_true_iff.mp h
    exact Bool.and_eq_true_iff.mpr ⟨written_of_floatFree hx, writtenMembers_of_floatFree hms⟩

end

theorem skipSpaces_cons {c : Char} (hc : isSpace c = false) (cs : List Char) :
    skipSpaces (c :: cs) = c :: cs := by simp [skipSpaces, hc]

theorem skipSpaces_space (cs : List Char) : skipSpaces (' ' :: cs) = skipSpaces cs := rfl

/-! ### Reading what was written -/

theorem toDigits_eq_cons (n : ℕ) : ∃ d ds, Nat.toDigits 10 n = d :: ds ∧ d.isDigit = true := by
  cases h : Nat.toDigits 10 n with
  | nil => exact absurd h Nat.toDigits_ne_nil
  | cons d ds =>
    have hd := Nat.isDigit_of_mem_toDigits (b := 10) (n := n) (c := d) (by omega) (by omega)
      (by simp [h])
    exact ⟨d, ds, rfl, hd⟩

theorem ne_of_isDigit {c d : Char} (hc : c.isDigit = true) (hd : d.isDigit = false) : c ≠ d := by
  rintro rfl
  rw [hc] at hd
  cases hd

theorem renderInt_head (i : ℤ) : ∃ c cs, renderInt i = c :: cs ∧ (c = '-' ∨ c.isDigit = true) := by
  cases i with
  | ofNat n =>
    obtain ⟨d, ds, hds, hd⟩ := toDigits_eq_cons n
    exact ⟨d, ds, hds, .inr hd⟩
  | negSucc n => exact ⟨'-', _, rfl, .inl rfl⟩

def isNumber : Json → Bool
  | .int _ => true
  | .float _ => true
  | _ => false

/-- A number begins with a digit, and only a number does. -/
theorem scanUnsigned_digit {neg : Bool} {p : List Char} {x : Json × List Char}
    (h : scanUnsigned neg p = some x) :
    isNumber x.1 = true ∧ ∃ d ds, p = d :: ds ∧ d.isDigit = true := by
  match p with
  | [] => simp [scanUnsigned, scanWhole] at h
  | d :: ds =>
    constructor
    · simp only [scanUnsigned, Option.bind_eq_bind, Option.bind_eq_some_iff, Option.pure_def] at h
      obtain ⟨w, -, h⟩ := h
      split_ifs at h <;> cases h <;> rfl
    · refine ⟨d, ds, rfl, ?_⟩
      by_contra hd
      have h0 : d ≠ '0' := by rintro rfl; exact hd rfl
      simp [scanUnsigned, scanWhole, h0, hd] at h

theorem scanLiteral_append {w p r : List Char} {v u : Json} (h : scanLiteral w v p = some (u, r))
    (q : List Char) : scanLiteral w v (p ++ q) = some (u, r ++ q) := by
  unfold scanLiteral at *
  split_ifs at h with hp
  cases h
  rw [if_pos (hp.trans (List.prefix_append p q)), List.drop_append_of_le_length hp.length_le]

/-- A digit behind a minus sign is not of "Infinity". -/
theorem scanLiteral_infinity_digit {d : Char} (hd : d.isDigit = true) (v : Json)
    (ds : List Char) : scanLiteral ('I' :: scanAtom.infinity) v (d :: ds) = none := by
  rw [scanLiteral, if_neg]
  intro hp
  exact ne_of_isDigit hd rfl (List.cons_prefix_cons.mp hp).1.symm

theorem eq_of_scanLiteral {w p r : List Char} {v u : Json} (h : scanLiteral w v p = some (u, r)) :
    u = v := by
  unfold scanLiteral at h
  split_ifs at h
  cases h
  rfl

/-- Text behind an atom does not change it, unless it continues a number. -/
theorem scanAtom_append {c : Char} {p r q : List Char} {v : Json} (h : scanAtom c p = some (v, r))
    (he : isNumber v = false ∨ Stops r ∧ (r = [] → Stops q)) :
    scanAtom c (p ++ q) = some (v, r ++ q) := by
  have hnum : ∀ {neg p}, scanUnsigned neg p = some (v, r) → Stops r ∧ (r = [] → Stops q) := by
    intro neg p h
    rcases he with he | he
    · rw [(scanUnsigned_digit h).1] at he
      cases he
    · exact he
  unfold scanAtom at *
  split_ifs at h ⊢ with h₁ h₂ h₃ h₄ h₅ h₆
  · exact scanLiteral_append h q
  · exact scanLiteral_append h q
  · exact scanLiteral_append h q
  · exact scanLiteral_append h q
  · exact scanLiteral_append h q
  · rcases Option.or_eq_some_iff.mp h with h | ⟨-, h⟩
    · rw [scanLiteral_append h, Option.some_or]
    · obtain ⟨-, d, ds, rfl, hd⟩ := scanUnsigned_digit h
      rw [scanUnsigned_append h (hnum h).2 (hnum h).1, List.cons_append,
        scanLiteral_infinity_digit hd, Option.none_or]
  · rw [← List.cons_append]
    exact scanUnsigned_append h (hnum h).2 (hnum h).1

theorem isFloatLiteral_cons {c : Char} {cs : List Char} :
    isFloatLiteral (c :: cs) = true ↔ scanAtom c cs = some (.float (c :: cs), []) := by
  rw [isFloatLiteral]
  split
  · next l h => simp [h]
  · next hne => exact ⟨fun h => absurd h (by decide), fun h => absurd h (hne _)⟩

theorem head_of_isFloatLiteral {c : Char} {cs : List Char} (h : isFloatLiteral (c :: cs) = true) :
    c = 'N' ∨ c = 'I' ∨ c = '-' ∨ c.isDigit = true := by
  have hscan := isFloatLiteral_cons.mp h
  unfold scanAtom at hscan
  split_ifs at hscan with h₁ h₂ h₃ h₄ h₅ h₆
  · cases eq_of_scanLiteral hscan
  · cases eq_of_scanLiteral hscan
  · cases eq_of_scanLiteral hscan
  · exact .inl h₄
  · exact .inr (.inl h₅)
  · exact .inr (.inr (.inl h₆))
  · obtain ⟨-, d, ds, heq, hd⟩ := scanUnsigned_digit hscan
    cases heq
    exact .inr (.inr (.inr hd))

theorem ne_opening_of_number_head {c : Char}
    (h : c = 'N' ∨ c = 'I' ∨ c = '-' ∨ c.isDigit = true) : c ≠ '"' ∧ c ≠ '[' ∧ c ≠ '{' := by
  rcases h with rfl | rfl | rfl | hd
  · decide
  · decide
  · decide
  · exact ⟨ne_of_isDigit hd rfl, ne_of_isDigit hd rfl, ne_of_isDigit hd rfl⟩

theorem not_space_of_isDigit {c : Char} (hd : c.isDigit = true) : isSpace c = false ∧ c ≠ ']' := by
  constructor
  · simp only [isSpace, Bool.or_eq_false_iff, decide_eq_false_iff_not]
    exact ⟨⟨⟨ne_of_isDigit hd rfl, ne_of_isDigit hd rfl⟩, ne_of_isDigit hd rfl⟩,
      ne_of_isDigit hd rfl⟩
  · exact ne_of_isDigit hd rfl

/-- A value begins neither with a space nor with a closing bracket. -/
theorem render_head {v : Json} (h : written v = true) :
    ∃ c cs, render v = c :: cs ∧ isSpace c = false ∧ c ≠ ']' := by
  cases v with
  | null => exact ⟨_, _, rfl, by decide, by decide⟩
  | bool b => cases b <;> exact ⟨_, _, rfl, by decide, by decide⟩
  | int i =>
    obtain ⟨c, cs, hc, hd⟩ := renderInt_head i
    refine ⟨c, cs, hc, ?_⟩
    rcases hd with rfl | hd
    · decide
    · exact not_space_of_isDigit hd
  | float l =>
    cases l with
    | nil => cases h
    | cons c cs =>
      refine ⟨c, cs, rfl, ?_⟩
      rcases head_of_isFloatLiteral h with rfl | rfl | rfl | hd
      · decide
      · decide
      · decide
      · exact not_space_of_isDigit hd
  | str s => exact ⟨_, _, rfl, by decide, by decide⟩
  | arr xs => cases xs <;> exact ⟨_, _, rfl, by decide, by decide⟩
  | obj ms => cases ms <;> exact ⟨_, _, rfl, by decide, by decide⟩

theorem scanAtom_digit {c : Char} (hd : c.isDigit = true) (cs : List Char) :
    scanAtom c cs = scanUnsigned false (c :: cs) := by
  have hne : ∀ {l : Char}, l.isDigit = false → c ≠ l := fun hl => ne_of_isDigit hd hl
  rw [scanAtom, if_neg (hne rfl), if_neg (hne rfl), if_neg (hne rfl), if_neg (hne rfl),
    if_neg (hne rfl), if_neg (hne rfl)]

theorem scanAtom_minus_digit {d : Char} (hd : d.isDigit = true) (cs : List Char) :
    scanAtom '-' (d :: cs) = scanUnsigned true (d :: cs) := by
  rw [scanAtom, if_neg (by decide), if_neg (by decide), if_neg (by decide), if_neg (by decide),
    if_neg (by decide), if_pos rfl, scanLiteral_infinity_digit hd, Option.none_or]

theorem scanAtom_int (i : ℤ) {c : Char} {cs r : List Char} (h : renderInt i = c :: cs)
    (hr : Stops r) : scanAtom c (cs ++ r) = some (.int i, r) := by
  cases i with
  | ofNat n =>
    obtain ⟨d, ds, hds, hd⟩ := toDigits_eq_cons n
    obtain ⟨rfl, rfl⟩ : d = c ∧ ds = cs := by simpa [renderInt, hds] using h
    have hs := scanUnsigned_toDigits false n hr
    rw [hds, List.cons_append] at hs
    rw [scanAtom_digit hd, hs]
    rfl
  | negSucc n =>
    obtain ⟨d, ds, hds, hd⟩ := toDigits_eq_cons (n + 1)
    obtain ⟨rfl, rfl⟩ : '-' = c ∧ d :: ds = cs := by simpa [renderInt, hds] using h
    have hs := scanUnsigned_toDigits true (n + 1) hr
    rw [hds, List.cons_append] at hs
    rw [List.cons_append, scanAtom_minus_digit hd, hs, Int.negSucc_eq]
    simp

/-- A value that is neither a string nor a container is read by `scanAtom`. -/
theorem scanValue_atom {n : ℕ} {c : Char} {cs : List Char} (hq : c ≠ '"') (hb : c ≠ '[')
    (ho : c ≠ '{') : scanValue (n + 1) (c :: cs) = scanAtom c cs := by
  simp [scanValue, hq, hb, ho]

theorem stops_renderItems (xs : List Json) (r : List Char) : Stops (renderItems xs ++ r) := by
  cases xs <;> exact stops_cons.mpr (by decide)

theorem stops_renderMembers (ms : List (String × Json)) (r : List Char) :
    Stops (renderMembers ms ++ r) := by
  rcases ms with _ | ⟨⟨k, x⟩, ms⟩ <;> exact stops_cons.mpr (by decide)

theorem length_renderItems_pos (xs : List Json) : 0 < (renderItems xs).length := by
  cases xs <;> simp [renderItems]

theorem length_renderMembers_pos (ms : List (String × Json)) : 0 < (renderMembers ms).length := by
  rcases ms with _ | ⟨⟨k, x⟩, ms⟩ <;> simp [renderMembers]

/-! The induction is on fuel: one step for a value, one for items, one for members. -/

def ReadsValues (n : ℕ) : Prop := ∀ (v : Json) (r : List Char), written v = true →
  2 * (render v).length ≤ n → Stops r → scanValue n (render v ++ r) = some (v, r)

def ReadsItems (n : ℕ) : Prop := ∀ (x : Json) (xs : List Json) (r : List Char),
  written x = true → writtenItems xs = true →
  2 * ((render x).length + (renderItems xs).length) ≤ n →
  scanItems n (render x ++ (renderItems xs ++ r)) = some (x :: xs, r)

def ReadsMembers (n : ℕ) : Prop := ∀ (k : String) (x : Json) (ms : List (String × Json))
  (r : List Char), written x = true → writtenMembers ms = true →
  2 * ((render x).length + (renderMembers ms).length) ≤ n →
  scanMembers n ('"' :: (escapeChars k.toList ++ '"' :: ':' :: ' ' ::
    (render x ++ (renderMembers ms ++ r)))) = some ((k, x) :: ms, r)

theorem readsValues_succ {n : ℕ} (hi : ReadsItems n) (hm : ReadsMembers n) :
    ReadsValues (n + 1) := by
  intro v r h hn hr
  match v with
  | .null => simp [render, scanValue_atom, scanAtom, scanLiteral]
  | .bool b => cases b <;> simp [render, scanValue_atom, scanAtom, scanLiteral]
  | .int i =>
    obtain ⟨c, cs, hc, hd⟩ := renderInt_head i
    have hne := ne_opening_of_number_head (.inr (.inr hd))
    rw [render, hc, List.cons_append, scanValue_atom hne.1 hne.2.1 hne.2.2]
    exact scanAtom_int i hc hr
  | .float [] => cases h
  | .float (c :: cs) =>
    have hne := ne_opening_of_number_head (head_of_isFloatLiteral h)
    rw [render, List.cons_append, scanValue_atom hne.1 hne.2.1 hne.2.2]
    exact scanAtom_append (isFloatLiteral_cons.mp h) (.inr ⟨stops_nil, fun _ => hr⟩)
  | .str s =>
    obtain ⟨t, ht, hs⟩ := scanString_renderString s r
    rw [render, ht, scanValue]
    simp [hs]
  | .arr [] => simp [render, scanValue, skipSpaces, isSpace]
  | .arr (x :: xs) =>
    simp only [render, List.length_cons, List.length_append] at hn
    simp only [written, writtenItems, Bool.and_eq_true] at h
    have hx := hi x xs r h.1 h.2 (by omega)
    obtain ⟨c, cs, hc, hsp, hb⟩ := render_head h.1
    rw [hc, List.cons_append] at hx
    rw [render, List.cons_append, List.append_assoc, scanValue, hc, List.cons_append]
    simp [skipSpaces_cons hsp, hb, hx]
  | .obj [] => simp [render, scanValue, skipSpaces, isSpace]
  | .obj ((k, x) :: ms) =>
    simp only [render, List.length_cons, List.length_append] at hn
    simp only [written, writtenMembers, Bool.and_eq_true] at h
    have hx := hm k x ms r h.1 h.2 (by omega)
    rw [render, List.cons_append, scanValue]
    simp [renderString, skipSpaces_cons (show isSpace '"' = false by decide), hx]

theorem readsItems_succ {n : ℕ} (hv : ReadsValues n) (hi : ReadsItems n) : ReadsItems (n + 1) := by
  intro x xs r hx hxs hn
  have hp := length_renderItems_pos xs
  rw [scanItems, hv x (renderItems xs ++ r) hx (by omega) (stops_renderItems xs r)]
  match xs with
  | [] => simp [renderItems, skipSpaces_cons (show isSpace ']' = false by decide)]
  | y :: ys =>
    simp only [renderItems, List.length_cons, List.length_append] at hn
    simp only [writtenItems, Bool.and_eq_true] at hxs
    have hy := hi y ys r hxs.1 hxs.2 (by omega)
    obtain ⟨c, cs, hc, hsp, -⟩ := render_head hxs.1
    rw [hc, List.cons_append] at hy
    simp [renderItems, hc, skipSpaces_cons (show isSpace ',' = false by decide), skipSpaces_space,
      skipSpaces_cons hsp, hy]

theorem readsMembers_succ {n : ℕ} (hv : ReadsValues n) (hm : ReadsMembers n) :
    ReadsMembers (n + 1) := by
  intro k x ms r hx hms hn
  have hp := length_renderMembers_pos ms
  have hx' := hv x (renderMembers ms ++ r) hx (by omega) (stops_renderMembers ms r)
  have hcolon := skipSpaces_cons (show isSpace ':' = false by decide)
  obtain ⟨c, cs, hc, hsp, -⟩ := render_head hx
  rw [hc, List.cons_append] at hx'
  rw [hc, List.cons_append, scanMembers, if_pos rfl, scanString_escapeChars]
  simp only [hcolon, ↓reduceIte, skipSpaces_space, skipSpaces_cons hsp, hx', String.ofList_toList]
  match ms with
  | [] => simp [renderMembers, skipSpaces_cons (show isSpace '}' = false by decide)]
  | (k', y) :: ms =>
    simp only [renderMembers, List.length_cons, List.length_append] at hn
    simp only [writtenMembers, Bool.and_eq_true] at hms
    have hy := hm k' y ms r hms.1 hms.2 (by omega)
    simp [renderMembers, renderString, skipSpaces_cons (show isSpace ',' = false by decide),
      skipSpaces_space, skipSpaces_cons (show isSpace '"' = false by decide), hy]

theorem reads (n : ℕ) : ReadsValues n ∧ ReadsItems n ∧ ReadsMembers n := by
  induction n with
  | zero =>
    refine ⟨fun v r h hn _ => ?_, fun x xs r _ _ hn => ?_, fun k x ms r _ _ hn => ?_⟩
    · obtain ⟨c, cs, hc, -⟩ := render_head h
      simp [hc] at hn
    · have := length_renderItems_pos xs
      omega
    · have := length_renderMembers_pos ms
      omega
  | succ n ih =>
    exact ⟨readsValues_succ ih.2.1 ih.2.2, readsItems_succ ih.1 ih.2.1,
      readsMembers_succ ih.1 ih.2.2⟩

/-- A written value is read back. -/
theorem loads_dumps {v : Json} (h : written v = true) : loads (dumps v) = some v := by
  obtain ⟨c, cs, hc, hsp, -⟩ := render_head h
  have hv := (reads (fuel (render v))).1 v [] h (Nat.le_add_right _ _) stops_nil
  rw [List.append_nil] at hv
  rw [loads, dumps, String.toList_ofList, hc, skipSpaces_cons hsp, ← hc, hv]
  rfl

/-! ### Text behind a value

Whatever follows a complete value does not change it. Numbers are the exception: they
have to be stopped first. -/

/-- The value ends where it was seen to end. -/
def Ended (v : Json) (r : List Char) : Prop := isNumber v = false ∨ r ≠ [] ∧ Stops r

theorem skipSpaces_append {r : List Char} (h : skipSpaces r ≠ []) (q : List Char) :
    skipSpaces (r ++ q) = skipSpaces r ++ q := by
  induction r with
  | nil => exact absurd rfl h
  | cons c r ih =>
    rw [List.cons_append, skipSpaces]
    rw [skipSpaces] at h ⊢
    split_ifs at h ⊢ with hc
    · exact ih h
    · rfl

theorem skipSpaces_append_cons {r r' : List Char} {d : Char} (h : skipSpaces r = d :: r')
    (q : List Char) : skipSpaces (r ++ q) = d :: (r' ++ q) := by
  rw [skipSpaces_append (h ▸ List.cons_ne_nil d r'), h, List.cons_append]

/-- A separator behind optional spaces ends every value. -/
theorem ended_of_skipSpaces {r r' : List Char} {d : Char} (h : skipSpaces r = d :: r')
    (hd : numberChar d = false) (v : Json) : Ended v r := by
  cases r with
  | nil => cases h
  | cons c r =>
    refine .inr ⟨List.cons_ne_nil c r, stops_cons.mpr ?_⟩
    rw [skipSpaces] at h
    split_ifs at h with hc
    · simp only [isSpace, Bool.or_eq_true, decide_eq_true_eq] at hc
      rcases hc with ((rfl | rfl) | rfl) | rfl <;> rfl
    · cases h; exact hd

def ExtendsValues (n : ℕ) : Prop := ∀ {p r : List Char} {v : Json}, scanValue n p = some (v, r) →
  Ended v r → ∀ m q, n ≤ m → scanValue m (p ++ q) = some (v, r ++ q)

def ExtendsItems (n : ℕ) : Prop := ∀ {p r : List Char} {vs : List Json},
  scanItems n p = some (vs, r) → ∀ m q, n ≤ m → scanItems m (p ++ q) = some (vs, r ++ q)

def ExtendsMembers (n : ℕ) : Prop := ∀ {p r : List Char} {ms : List (String × Json)},
  scanMembers n p = some (ms, r) → ∀ m q, n ≤ m → scanMembers m (p ++ q) = some (ms, r ++ q)

theorem extendsValues_succ {n : ℕ} (hi : ExtendsItems n) (hm : ExtendsMembers n) :
    ExtendsValues (n + 1) := by
  intro p r v h he m q hnm
  obtain ⟨m, rfl⟩ := Nat.exists_eq_add_of_le' (show 1 ≤ m by omega)
  cases p with
  | nil => cases h
  | cons c p =>
    rw [scanValue] at h
    rw [List.cons_append, scanValue]
    split_ifs at h ⊢ with hq hb ho
    · obtain ⟨⟨s, r'⟩, hs, hx⟩ := Option.map_eq_some_iff.mp h
      cases hx
      rw [scanString_append hs]
      rfl
    · cases hp : skipSpaces p with
      | nil => rw [hp] at h; cases h
      | cons d r' =>
        rw [hp] at h
        rw [skipSpaces_append_cons hp]
        simp only at h ⊢
        split_ifs at h ⊢ with hd
        · cases h; rfl
        · obtain ⟨⟨vs, r''⟩, hs, hx⟩ := Option.map_eq_some_iff.mp h
          cases hx
          rw [← List.cons_append, hi hs m q (by omega)]
          rfl
    · cases hp : skipSpaces p with
      | nil => rw [hp] at h; cases h
      | cons d r' =>
        rw [hp] at h
        rw [skipSpaces_append_cons hp]
        simp only at h ⊢
        split_ifs at h ⊢ with hd
        · cases h; rfl
        · obtain ⟨⟨ms, r''⟩, hs, hx⟩ := Option.map_eq_some_iff.mp h
          cases hx
          rw [← List.cons_append, hm hs m q (by omega)]
          rfl
    · exact scanAtom_append h (he.imp_right fun hr => ⟨hr.2, fun hnil => absurd hnil hr.1⟩)

theorem scanItems_ne_nil {n : ℕ} {p : List Char} {x : List Json × List Char}
    (h : scanItems n p = some x) : p ≠ [] := by
  rintro rfl
  rcases n with _ | _ | n <;> simp [scanItems, scanValue] at h

theorem scanMembers_ne_nil {n : ℕ} {p : List Char} {x : List (String × Json) × List Char}
    (h : scanMembers n p = some x) : p ≠ [] := by
  rintro rfl
  cases n <;> simp [scanMembers] at h

theorem scanValue_ne_nil {n : ℕ} {p : List Char} {x : Json × List Char}
    (h : scanValue n p = some x) : p ≠ [] := by
  rintro rfl
  cases n <;> simp [scanValue] at h

theorem extendsItems_succ {n : ℕ} (hv : ExtendsValues n) (hi : ExtendsItems n) :
    ExtendsItems (n + 1) := by
  intro p r vs h m q hnm
  obtain ⟨m, rfl⟩ := Nat.exists_eq_add_of_le' (show 1 ≤ m by omega)
  rw [scanItems] at h
  cases hx : scanValue n p with
  | none => rw [hx] at h; cases h
  | some x =>
    obtain ⟨v, r₁⟩ := x
    rw [hx] at h
    cases hs : skipSpaces r₁ with
    | nil => simp [hs] at h
    | cons d r₂ =>
      simp only [hs] at h
      have hv' : numberChar d = false → scanValue m (p ++ q) = some (v, r₁ ++ q) :=
        fun hd => hv hx (ended_of_skipSpaces hs hd v) m q (by omega)
      rw [scanItems]
      split_ifs at h with hd hd'
      · cases h
        rw [hv' (by rw [hd]; rfl)]
        simp [skipSpaces_append_cons hs, hd]
      · obtain ⟨⟨us, r'⟩, hu, hy⟩ := Option.map_eq_some_iff.mp h
        cases hy
        rw [hv' (by rw [hd']; rfl)]
        simp [skipSpaces_append_cons hs, hd', skipSpaces_append (scanItems_ne_nil hu),
          hi hu m q (by omega)]

theorem extendsMembers_succ {n : ℕ} (hv : ExtendsValues n) (hm : ExtendsMembers n) :
    ExtendsMembers (n + 1) := by
  intro p r ms h m q hnm
  obtain ⟨m, rfl⟩ := Nat.exists_eq_add_of_le' (show 1 ≤ m by omega)
  cases p with
  | nil => cases h
  | cons c p =>
    rw [scanMembers] at h
    split_ifs at h with hq
    cases hk : scanString p with
    | none => rw [hk] at h; cases h
    | some x =>
      obtain ⟨k, r₁⟩ := x
      rw [hk] at h
      cases hs₁ : skipSpaces r₁ with
      | nil => simp [hs₁] at h
      | cons d₁ r₂ =>
        simp only [hs₁] at h
        split_ifs at h with hd₁
        cases hx : scanValue n (skipSpaces r₂) with
        | none => rw [hx] at h; cases h
        | some x =>
          obtain ⟨v, r₃⟩ := x
          simp only [hx] at h
          cases hs₃ : skipSpaces r₃ with
          | nil => simp [hs₃] at h
          | cons d r₄ =>
            simp only [hs₃] at h
            have hne₂ := scanValue_ne_nil hx
            have hv' : numberChar d = false →
                scanValue m (skipSpaces r₂ ++ q) = some (v, r₃ ++ q) :=
              fun hd => hv hx (ended_of_skipSpaces hs₃ hd v) m q (by omega)
            rw [List.cons_append, scanMembers, if_pos hq, scanString_append hk]
            simp only [skipSpaces_append_cons hs₁, hd₁, ↓reduceIte, skipSpaces_append hne₂]
            split_ifs at h with hd hd'
            · cases h
              rw [hv' (by rw [hd]; rfl)]
              simp [skipSpaces_append_cons hs₃, hd]
            · obtain ⟨⟨us, r'⟩, hu, hy⟩ := Option.map_eq_some_iff.mp h
              cases hy
              rw [hv' (by rw [hd']; rfl)]
              simp [skipSpaces_append_cons hs₃, hd', skipSpaces_append (scanMembers_ne_nil hu),
                hm hu m q (by omega)]

theorem extendsAll (n : ℕ) : ExtendsValues n ∧ ExtendsItems n ∧ ExtendsMembers n := by
  induction n with
  | zero =>
    refine ⟨?_, ?_, ?_⟩
    · intro p r v h; cases h
    · intro p r vs h; cases h
    · intro p r ms h; cases h
  | succ n ih =>
    exact ⟨extendsValues_succ ih.2.1 ih.2.2, extendsItems_succ ih.1 ih.2.1,
      extendsMembers_succ ih.1 ih.2.2⟩

theorem isNumber_of_bracket {n : ℕ} {p r : List Char} {v : Json}
    (h : scanValue n ('[' :: p) = some (v, r)) : isNumber v = false := by
  cases n with
  | zero => cases h
  | succ n =>
    rw [scanValue, if_neg (by decide), if_pos rfl] at h
    split at h
    · cases h
    · split_ifs at h
      · cases h; rfl
      · obtain ⟨x, -, hx⟩ := Option.map_eq_some_iff.mp h
        cases hx; rfl

/-- A written list that was cut short is not readable. -/
theorem loads_prefix {xs : List Json} (h : floatFree (.arr xs) = true) {p q : List Char}
    (hpq : p ++ q = render (.arr xs)) (hq : q ≠ []) : loads (String.ofList p) = none := by
  cases p with
  | nil => rfl
  | cons c p =>
    obtain rfl : c = '[' := by
      cases xs <;> simp only [render, List.cons_append, List.cons.injEq] at hpq <;> exact hpq.1
    have hfull := (reads (fuel (render (.arr xs)))).1 (.arr xs) [] (written_of_floatFree h)
      (Nat.le_add_right _ _) stops_nil
    rw [List.append_nil, ← hpq] at hfull
    rw [loads, String.toList_ofList, skipSpaces_cons rfl]
    cases hs : scanValue (fuel ('[' :: p)) ('[' :: p) with
    | none => rfl
    | some x =>
      obtain ⟨v, r⟩ := x
      have hle : fuel ('[' :: p) ≤ fuel ('[' :: p ++ q) := by simp [fuel]
      rw [(extendsAll _).1 hs (.inl (isNumber_of_bracket hs)) _ q hle] at hfull
      have hr : r ++ q = [] := by simpa using congrArg Prod.snd (Option.some.inj hfull)
      exact absurd (List.append_eq_nil_iff.mp hr).2 hq

end Lobbyboy.Foundation.Json
