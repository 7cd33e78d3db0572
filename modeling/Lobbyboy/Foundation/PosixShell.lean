import Mathlib.Algebra.BigOperators.Group.List.Basic
import Mathlib.Algebra.GroupWithZero.Nat
import Mathlib.Data.List.Basic

/-! The words that a POSIX shell finds in the text of a simple command: the text is cut into
tokens, quotations and expansions; what comes of the expansions is split into fields, and a
field that is a pattern is replaced by the paths that match it. A list of words that are
joined by spaces is found again, whatever the variables and the files are, if and only if
nothing in the words means anything to the shell. -/

namespace Lobbyboy.Foundation.PosixShell

/-! ### Characters -/

def quote : Char := Char.ofNat 39

def doubleQuote : Char := Char.ofNat 34

def backslash : Char := Char.ofNat 92

def backquote : Char := Char.ofNat 96

def IsBlank (c : Char) : Prop := c = ' ' ∨ c = Char.ofNat 9

def IsNewline (c : Char) : Prop := c = Char.ofNat 10

/-- What ends a word and is a token of its own, or begins one. -/
def IsOperator (c : Char) : Prop :=
  c = ';' ∨ c = '&' ∨ c = '|' ∨ c = '<' ∨ c = '>' ∨ c = '(' ∨ c = ')' ∨ IsNewline c

def IsExpansion (c : Char) : Prop := c = '$' ∨ c = backquote

def IsQuoting (c : Char) : Prop := c = quote ∨ c = doubleQuote ∨ c = backslash

instance : DecidablePred IsBlank := fun _ => inferInstanceAs (Decidable (_ ∨ _))

instance : DecidablePred IsNewline := fun c => inferInstanceAs (Decidable (c = _))

instance : DecidablePred IsOperator := fun _ =>
  inferInstanceAs (Decidable (_ ∨ _ ∨ _ ∨ _ ∨ _ ∨ _ ∨ _ ∨ _))

instance : DecidablePred IsExpansion := fun _ => inferInstanceAs (Decidable (_ ∨ _))

instance : DecidablePred IsQuoting := fun _ => inferInstanceAs (Decidable (_ ∨ _ ∨ _))

/-- A character that is a part of a word wherever it stands unquoted. -/
structure Ordinary (c : Char) : Prop where
  not_blank : ¬ IsBlank c
  not_operator : ¬ IsOperator c
  not_expansion : ¬ IsExpansion c
  not_quoting : ¬ IsQuoting c

instance : DecidablePred Ordinary := fun c =>
  decidable_of_iff (¬ IsBlank c ∧ ¬ IsOperator c ∧ ¬ IsExpansion c ∧ ¬ IsQuoting c)
    ⟨fun h => ⟨h.1, h.2.1, h.2.2.1, h.2.2.2⟩, fun h => ⟨h.1, h.2, h.3, h.4⟩⟩

/-! ### Shells -/

inductive Bracket where
  | brace | paren | backquote
  deriving DecidableEq

/-- What is left open here: how far the text in brackets goes, with the closing one, and
which brackets in a field are a pattern. -/
structure Shell where
  closing : Bracket → List Char → Option ℕ
  bracketPattern : List (Char × Bool) → Bool
  bracket_mem : ∀ field, bracketPattern field = true → ('[', false) ∈ field

/-- What the words depend on besides the text: the values of expansions, the home directory
of each login (the empty one is the user's own), and the paths that match a pattern. -/
structure Env where
  value : List Char → List Char
  home : List Char → List Char
  glob : List (Char × Bool) → List (List Char)

/-- What words are made of. A quoted character is no pattern; a quotation is marked, since
it makes a word even if nothing is in it. -/
inductive Piece where
  | char (c : Char) (quoted : Bool)
  | mark
  | sep
  deriving DecidableEq

inductive Item where
  | piece (x : Piece)
  | tilde (login : List Char)
  | expansion (text : List Char) (quoted : Bool)
  deriving DecidableEq

variable (sh : Shell)

/-! ### Tokens -/

/-- Where the reader of the text is: outside of quotations, in a word or not, or inside of
one, or behind a backslash, or in a comment. -/
inductive Mode where
  | unquoted (inWord : Bool)
  | single
  | double
  | escaped (inWord inDouble : Bool)
  | comment
  deriving DecidableEq

def isNameStart (c : Char) : Bool := c.isAlpha || c == '_'

def isNameChar (c : Char) : Bool := isNameStart c || c.isDigit

def isSpecialParameter (c : Char) : Bool := c ∈ ['@', '*', '#', '?', '-', '$', '!']

/-- The number of characters of an expansion behind its first one. It is left open what a
`$` stands for where no expansion begins. -/
def expansionLength (c : Char) (cs : List Char) : Option ℕ :=
  if c = backquote then sh.closing .backquote cs
  else
    match cs with
    | [] => none
    | d :: ds =>
      if d = Char.ofNat 123 then (sh.closing .brace ds).map (· + 1)
      else if d = '(' then (sh.closing .paren ds).map (· + 1)
      else if isSpecialParameter d ∨ d.isDigit then some 1
      else if isNameStart d then some (cs.takeWhile isNameChar).length
      else none

def isLoginChar (c : Char) : Bool := Ordinary c ∧ c ≠ '/'

/-- A tilde stands for a home directory if nothing in the login behind it is quoted. -/
def endsLogin : List Char → Bool
  | [] => true
  | c :: _ => c = '/' ∨ IsBlank c ∨ IsOperator c

/-- What comes of a character outside of quotations: what is found, how many of the next
characters belong to it, and where the reader is then. -/
def stepUnquoted (inWord : Bool) (c : Char) (cs : List Char) : Option (List Item × ℕ × Mode) :=
  if IsBlank c then some ([.piece .sep], 0, .unquoted false)
  else if IsOperator c then none
  else if c = quote then some ([.piece .mark], 0, .single)
  else if c = doubleQuote then some ([.piece .mark], 0, .double)
  else if c = backslash then some ([], 0, .escaped inWord false)
  else if IsExpansion c then
    (expansionLength sh c cs).map fun n =>
      ([.expansion (c :: cs.take n) false], n, .unquoted true)
  else if c = '#' ∧ inWord = false then some ([], 0, .comment)
  else if c = '~' ∧ inWord = false ∧ endsLogin (cs.dropWhile isLoginChar) then
    let login := cs.takeWhile isLoginChar
    some ([.tilde login], login.length, .unquoted true)
  else some ([.piece (.char c false)], 0, .unquoted true)

/-- A character in double quotes. A backslash is one, except before what has a meaning
there. -/
def stepDouble (c : Char) (cs : List Char) : Option (List Item × ℕ × Mode) :=
  if c = doubleQuote then some ([], 0, .unquoted true)
  else if c = backslash then
    match cs with
    | [] => none
    | d :: _ =>
      if IsExpansion d ∨ d = doubleQuote ∨ d = backslash ∨ IsNewline d then
        some ([], 0, .escaped true true)
      else some ([.piece (.char c true)], 0, .double)
  else if IsExpansion c then
    (expansionLength sh c cs).map fun n => ([.expansion (c :: cs.take n) true], n, .double)
  else some ([.piece (.char c true)], 0, .double)

/-- A newline is left out together with the backslash before it. -/
def stepEscaped (inWord inDouble : Bool) (c : Char) : List Item × ℕ × Mode :=
  if IsNewline c then ([], 0, if inDouble then .double else .unquoted inWord)
  else ([.piece (.char c true)], 0, if inDouble then .double else .unquoted true)

def step (m : Mode) (c : Char) (cs : List Char) : Option (List Item × ℕ × Mode) :=
  match m with
  | .unquoted inWord => stepUnquoted sh inWord c cs
  | .single => if c = quote then some ([], 0, .unquoted true)
      else some ([.piece (.char c true)], 0, .single)
  | .double => stepDouble sh c cs
  | .escaped inWord inDouble => some (stepEscaped inWord inDouble c)
  | .comment => if IsNewline c then none else some ([], 0, .comment)

def Mode.mayEnd : Mode → Bool
  | .unquoted _ | .comment => true
  | .single | .double | .escaped _ _ => false

/-- `none` if there is an operator, or an open quotation or bracket. The first argument
counts the characters that belong to what was found last. -/
def scan : ℕ → Mode → List Char → Option (List Item)
  | 0, m, [] => if m.mayEnd then some [] else none
  | _ + 1, _, [] => none
  | n + 1, m, _ :: cs => scan n m cs
  | 0, m, c :: cs =>
    match step sh m c cs with
    | none => none
    | some (items, n, m') => (scan n m' cs).map (items ++ ·)

/-! ### Words -/

/-- What comes of an unquoted expansion is split at white space. -/
def Env.expand (env : Env) : Item → List Piece
  | .piece x => [x]
  | .tilde login => .mark :: (env.home login).map (.char · true)
  | .expansion text true => (env.value text).map (.char · true)
  | .expansion text false =>
    (env.value text).map fun c => if IsBlank c ∨ IsNewline c then .sep else .char c false

def Piece.char? : Piece → Option (Char × Bool)
  | .char c quoted => some (c, quoted)
  | .mark | .sep => none

def isPattern (field : List (Char × Bool)) : Bool :=
  ('*', false) ∈ field || ('?', false) ∈ field || sh.bracketPattern field

/-- The words of a field: itself, or the paths that match. -/
def paths (env : Env) (field : List Piece) : List (List Char) :=
  let chars := field.filterMap Piece.char?
  if isPattern sh chars ∧ env.glob chars ≠ [] then env.glob chars else [chars.map Prod.fst]

def fields (pieces : List Piece) : List (List Piece) := (pieces.splitOn .sep).filter (· ≠ [])

/-- The words of a simple command. The text is that of an argument, so there is no NUL in
it. -/
def words (env : Env) (text : List Char) : Option (List (List Char)) :=
  if Char.ofNat 0 ∈ text then none
  else (scan sh 0 (.unquoted false) text).map fun items =>
    (fields (items.flatMap env.expand)).flatMap (paths sh env)

/-! ### Texts without meaning -/

variable {sh}

/-- Nothing in the text is quoted, expanded or left out; it is read in a word or not. -/
def Plain : Bool → List Char → Prop
  | _, [] => True
  | inWord, c :: cs =>
    if IsBlank c then Plain false cs
    else Ordinary c ∧ (inWord = false → c ≠ '#' ∧ c ≠ '~') ∧ Plain true cs

/-- What comes of a character of such a text. -/
def plainPiece (c : Char) : Piece := if IsBlank c then .sep else .char c false

theorem blank_or_ordinary {inWord : Bool} {text : List Char} (h : Plain inWord text) :
    ∀ c ∈ text, IsBlank c ∨ Ordinary c := by
  induction text generalizing inWord with
  | nil => exact List.forall_mem_nil _
  | cons c cs ih =>
    rw [Plain] at h
    split_ifs at h with hc
    · exact List.forall_mem_cons.mpr ⟨.inl hc, ih h⟩
    · exact List.forall_mem_cons.mpr ⟨.inr h.1, ih h.2.2⟩

theorem stepUnquoted_ordinary {inWord : Bool} {c : Char} {cs : List Char} (hc : Ordinary c)
    (hstart : inWord = false → c ≠ '#' ∧ c ≠ '~') :
    stepUnquoted sh inWord c cs = some ([.piece (.char c false)], 0, .unquoted true) := by
  have hquote := hc.not_quoting
  rw [IsQuoting, not_or, not_or] at hquote
  rw [stepUnquoted, if_neg hc.not_blank, if_neg hc.not_operator, if_neg hquote.1,
    if_neg hquote.2.1, if_neg hquote.2.2, if_neg hc.not_expansion,
    if_neg fun h => (hstart h.2).1 h.1, if_neg fun h => (hstart h.2.1).2 h.1]

theorem scan_plain {inWord : Bool} {text : List Char} (h : Plain inWord text) :
    scan sh 0 (.unquoted inWord) text = some (text.map fun c => .piece (plainPiece c)) := by
  induction text generalizing inWord with
  | nil => rfl
  | cons c cs ih =>
    rw [Plain] at h
    rw [scan, step]
    split_ifs at h with hc
    · rw [stepUnquoted, if_pos hc]
      simp [ih h, plainPiece, hc]
    · rw [stepUnquoted_ordinary h.1 h.2.1]
      simp [ih h.2.2, plainPiece, hc]

/-! ### Counting

Each character and each separator takes at least one character of the text; a quotation, an
expansion or a comment takes some for nothing. So a text of which nothing is lost is plain. -/

def Item.weight : Item → ℕ
  | .piece (.char _ _) | .piece .sep => 1
  | .piece .mark | .tilde _ | .expansion _ _ => 0

def weight (items : List Item) : ℕ := (items.map Item.weight).sum

theorem weight_append (items items' : List Item) :
    weight (items ++ items') = weight items + weight items' := by
  simp [weight]

theorem weight_step_le {m m' : Mode} {c : Char} {cs : List Char} {items : List Item} {n : ℕ}
    (h : step sh m c cs = some (items, n, m')) : weight items ≤ 1 := by
  have hlength : items.length ≤ 1 := by
    unfold step stepUnquoted stepDouble stepEscaped at h
    cases hexpansion : expansionLength sh c cs with
    | none => grind
    | some k => grind
  match items, hlength with
  | [], _ => exact Nat.zero_le 1
  | [item], _ =>
    simp only [weight, List.map_cons, List.map_nil, List.sum_cons, List.sum_nil]
    unfold Item.weight
    split <;> simp

theorem weight_scan_le {n : ℕ} {m : Mode} {text : List Char} {items : List Item}
    (h : scan sh n m text = some items) : weight items ≤ text.length := by
  induction text generalizing n m items with
  | nil =>
    cases n with
    | zero =>
      rw [scan] at h
      split_ifs at h
      cases h
      exact Nat.le_refl 0
    | succ n => cases h
  | cons c cs ih =>
    cases n with
    | zero =>
      rw [scan] at h
      split at h
      · cases h
      · next found n m' hstep =>
        obtain ⟨rest, hrest, rfl⟩ := Option.map_eq_some_iff.mp h
        rw [weight_append, List.length_cons]
        have hfound := weight_step_le hstep
        have hle := ih hrest
        omega
    | succ n =>
      have hle := ih h
      rw [List.length_cons]
      omega

/-- A step outside of quotations that finds a character or a separator. -/
theorem stepUnquoted_cases {inWord : Bool} {c : Char} {cs : List Char} {items : List Item} {n : ℕ}
    {m' : Mode} (h : stepUnquoted sh inWord c cs = some (items, n, m'))
    (hweight : weight items ≠ 0) :
    n = 0 ∧ (IsBlank c ∧ m' = .unquoted false ∨ ¬ IsBlank c ∧ Ordinary c ∧ m' = .unquoted true ∧
      (inWord = false → c ≠ '#') ∧
        (inWord = false → c = '~' → endsLogin (cs.dropWhile isLoginChar) = false)) := by
  unfold stepUnquoted at h
  split_ifs at h with hblank hoperator hquote hdouble hbackslash hexpansion hcomment htilde
  · cases h
    exact ⟨rfl, .inl ⟨hblank, rfl⟩⟩
  · cases h
    exact absurd rfl hweight
  · cases h
    exact absurd rfl hweight
  · cases h
    exact absurd rfl hweight
  · obtain ⟨k, -, hk⟩ := Option.map_eq_some_iff.mp h
    cases hk
    exact absurd rfl hweight
  · cases h
    exact absurd rfl hweight
  · cases h
    exact absurd rfl hweight
  · cases h
    have hordinary : Ordinary c :=
      ⟨hblank, hoperator, hexpansion, fun hq => hq.elim hquote fun hq => hq.elim hdouble hbackslash⟩
    refine ⟨rfl, .inr ⟨hblank, hordinary, rfl, fun hstart hc => hcomment ⟨hc, hstart⟩, ?_⟩⟩
    exact fun hstart hc => Bool.eq_false_iff.mpr fun hends => htilde ⟨hc, hstart, hends⟩

/-- In a plain text, every login ends where it may. -/
theorem endsLogin_of_plain {inWord : Bool} {text : List Char} (h : Plain inWord text) :
    endsLogin (text.dropWhile isLoginChar) = true := by
  cases hrest : text.dropWhile isLoginChar with
  | nil => rfl
  | cons c rest =>
    have hmem : c ∈ text := (List.dropWhile_sublist _).subset (hrest ▸ List.mem_cons_self)
    have hnot : isLoginChar c = false := by
      have hhead := List.head?_dropWhile_not isLoginChar text
      rw [hrest] at hhead
      simpa using hhead
    rw [isLoginChar, decide_eq_false_iff_not] at hnot
    rw [endsLogin, decide_eq_true_eq]
    rcases blank_or_ordinary h c hmem with hblank | hordinary
    · exact .inr (.inl hblank)
    · exact .inl (by_contra fun hslash => hnot ⟨hordinary, hslash⟩)

/-- A text of which nothing is lost is plain. -/
theorem plain_of_weight {inWord : Bool} {text : List Char} {items : List Item}
    (h : scan sh 0 (.unquoted inWord) text = some items) (hweight : weight items = text.length) :
    Plain inWord text := by
  induction text generalizing inWord items with
  | nil => trivial
  | cons c cs ih =>
    rw [scan] at h
    split at h
    · cases h
    · next found n m' hstep =>
      obtain ⟨rest, hrest, rfl⟩ := Option.map_eq_some_iff.mp h
      rw [weight_append, List.length_cons] at hweight
      have hfound := weight_step_le hstep
      have hle := weight_scan_le hrest
      obtain ⟨rfl, ⟨hc, rfl⟩ | ⟨hblank, hc, rfl, hcomment, htilde⟩⟩ :=
        stepUnquoted_cases hstep (by omega)
      · rw [Plain, if_pos hc]
        exact ih hrest (by omega)
      · have hplain := ih hrest (by omega)
        rw [Plain, if_neg hblank]
        refine ⟨hc, fun hstart => ⟨hcomment hstart, fun heq => ?_⟩, hplain⟩
        rw [endsLogin_of_plain hplain] at htilde
        cases htilde hstart heq

/-! ### Fields -/

section SplitOn

variable {α : Type*} [DecidableEq α]

theorem flatten_splitOn (a : α) (l : List α) : (l.splitOn a).flatten = l.filter (· ≠ a) := by
  induction l with
  | nil => simp
  | cons b l ih =>
    rw [List.splitOn_cons_eq_if_modifyHead]
    by_cases hb : b = a
    · simp [hb, ih]
    · obtain ⟨first, rest, hsplit⟩ := List.exists_cons_of_ne_nil (List.splitOn_ne_nil a l)
      rw [hsplit] at ih
      simpa [hb, hsplit] using ih

theorem length_splitOn (a : α) (l : List α) : (l.splitOn a).length = l.count a + 1 := by
  induction l with
  | nil => simp
  | cons b l ih =>
    rw [List.splitOn_cons_eq_if_modifyHead]
    by_cases hb : b = a <;> simp [hb, ih]

end SplitOn

theorem filterMap_chars (cs : List Char) (quoted : Bool) :
    (cs.map (Piece.char · quoted)).filterMap Piece.char? = cs.map (·, quoted) := by
  rw [List.filterMap_map, ← List.filterMap_eq_map]
  rfl

/-- The characters of a field. -/
def word (field : List Piece) : List Char := (field.filterMap Piece.char?).map Prod.fst

theorem flatten_fields (pieces : List Piece) :
    (fields pieces).flatten = pieces.filter (· ≠ .sep) := by
  rw [fields, List.flatten_filter_ne_nil, flatten_splitOn]

/-- No character is lost. -/
theorem sum_length_word_fields (pieces : List Piece) :
    ((fields pieces).map fun field => (word field).length).sum =
      (pieces.filterMap Piece.char?).length := by
  have hword : ∀ field, (word field).length = (field.filterMap Piece.char?).length :=
    fun field => List.length_map _
  have hsep : (pieces.filter (· ≠ .sep)).filterMap Piece.char? = pieces.filterMap Piece.char? := by
    rw [List.filterMap_filter]
    refine congrArg (List.filterMap · pieces) (funext fun x => ?_)
    cases x <;> rfl
  rw [← hsep, ← flatten_fields, List.filterMap_flatten, List.length_flatten, List.map_map]
  exact congrArg List.sum (List.map_congr_left fun field _ => hword field)

theorem length_fields_le (pieces : List Piece) :
    (fields pieces).length ≤ pieces.count .sep + 1 := by
  rw [← length_splitOn]
  exact List.length_filter_le _ _

theorem mem_of_mem_fields {pieces field : List Piece} (h : field ∈ fields pieces) :
    field ≠ [] ∧ ∀ x ∈ field, x ∈ pieces ∧ x ≠ .sep := by
  refine ⟨by simpa using (List.mem_filter.mp h).2, fun x hx => ?_⟩
  have hmem : x ∈ (fields pieces).flatten := List.mem_flatten.mpr ⟨field, h, hx⟩
  rw [flatten_fields] at hmem
  simpa using List.mem_filter.mp hmem

/-! ### Words of a plain text -/

/-- The words, where no path matches. -/
theorem paths_of_glob_nil {env : Env} (h : ∀ field, env.glob field = []) :
    paths sh env = fun field => [word field] := by
  funext field
  simp [paths, word, h]

theorem words_of_plain {text : List Char} (h : Plain false text) (hnul : Char.ofNat 0 ∉ text)
    (env : Env) :
    words sh env text = some ((fields (text.map plainPiece)).flatMap (paths sh env)) := by
  rw [words, if_neg hnul, scan_plain h, Option.map_some, List.flatMap_map]
  refine congrArg (fun pieces => some ((fields pieces).flatMap (paths sh env))) ?_
  exact List.map_eq_flatMap.symm

theorem word_of_plain {text : List Char} {field : List Piece}
    (h : field ∈ fields (text.map plainPiece)) :
    word field ≠ [] ∧ ∀ c ∈ word field, ¬ IsBlank c := by
  obtain ⟨hne, hmem⟩ := mem_of_mem_fields h
  have hchar : ∀ x ∈ field, ∃ c, ¬ IsBlank c ∧ x = .char c false := by
    intro x hx
    obtain ⟨hpiece, hsep⟩ := hmem x hx
    obtain ⟨c, -, rfl⟩ := List.mem_map.mp hpiece
    rw [plainPiece] at hsep ⊢
    split_ifs at hsep ⊢ with hc
    · exact absurd rfl hsep
    · exact ⟨c, hc, rfl⟩
  constructor
  · obtain ⟨x, hx⟩ := List.exists_mem_of_ne_nil _ hne
    obtain ⟨c, -, rfl⟩ := hchar x hx
    have hmem : (c, false) ∈ field.filterMap Piece.char? := List.mem_filterMap.mpr ⟨_, hx, rfl⟩
    exact List.ne_nil_of_mem (List.mem_map.mpr ⟨_, hmem, rfl⟩)
  · intro c hc
    obtain ⟨⟨d, quoted⟩, hd, rfl⟩ := List.mem_map.mp hc
    obtain ⟨x, hx, hxd⟩ := List.mem_filterMap.mp hd
    obtain ⟨c', hblank, rfl⟩ := hchar x hx
    cases hxd
    exact hblank

/-! ### Joined words -/

/-- A word without blanks, followed by something. -/
theorem plain_append_iff {u rest : List Char} (hu : ∀ c ∈ u, ¬ IsBlank c) :
    Plain true (u ++ rest) ↔ (∀ c ∈ u, Ordinary c) ∧ Plain true rest := by
  induction u with
  | nil => simp
  | cons c u ih =>
    obtain ⟨hc, hu⟩ := List.forall_mem_cons.mp hu
    rw [List.cons_append, Plain, if_neg hc, ih hu, List.forall_mem_cons]
    simp [and_assoc]

structure Bare (u : List Char) : Prop where
  ordinary : ∀ c ∈ u, Ordinary c
  no_comment : u.head? ≠ some '#'
  no_tilde : u.head? ≠ some '~'

theorem plain_word_append_iff {u rest : List Char} (hne : u ≠ []) (hu : ∀ c ∈ u, ¬ IsBlank c) :
    Plain false (u ++ rest) ↔ Bare u ∧ Plain true rest := by
  obtain ⟨c, u, rfl⟩ := List.exists_cons_of_ne_nil hne
  obtain ⟨hc, hu⟩ := List.forall_mem_cons.mp hu
  rw [List.cons_append, Plain, if_neg hc, plain_append_iff hu]
  constructor
  · rintro ⟨hordinary, hstart, hrest, hplain⟩
    exact ⟨⟨List.forall_mem_cons.mpr ⟨hordinary, hrest⟩, by simpa using (hstart rfl).1,
      by simpa using (hstart rfl).2⟩, hplain⟩
  · rintro ⟨⟨hordinary, hcomment, htilde⟩, hplain⟩
    obtain ⟨hfirst, hrest⟩ := List.forall_mem_cons.mp hordinary
    exact ⟨hfirst, fun _ => ⟨by simpa using hcomment, by simpa using htilde⟩, hrest, hplain⟩

section Joined

variable {units : List (List Char)} (h : ∀ u ∈ units, u ≠ [] ∧ ∀ c ∈ u, ¬ IsBlank c)

include h

theorem plain_join_iff : Plain false ([' '].intercalate units) ↔ ∀ u ∈ units, Bare u := by
  induction units with
  | nil => simp [Plain]
  | cons u units ih =>
    obtain ⟨⟨hne, hu⟩, hunits⟩ := List.forall_mem_cons.mp h
    rw [List.forall_mem_cons]
    cases units with
    | nil =>
      rw [List.intercalate_singleton, ← List.append_nil u, plain_word_append_iff hne hu]
      simp [Plain]
    | cons v units =>
      rw [List.intercalate_cons_cons, List.append_assoc, plain_word_append_iff hne hu,
        List.singleton_append, Plain, if_pos (.inl rfl), ih hunits]

theorem map_join : ([' '].intercalate units).map plainPiece =
    [Piece.sep].intercalate (units.map fun u => u.map (Piece.char · false)) := by
  have hmap : ∀ u ∈ units, u.map plainPiece = u.map (Piece.char · false) := by
    intro u hu
    exact List.map_congr_left fun c hc => if_neg ((h u hu).2 c hc)
  induction units with
  | nil => rfl
  | cons u units ih =>
    obtain ⟨hu, hunits⟩ := List.forall_mem_cons.mp hmap
    cases units with
    | nil => simpa using hu
    | cons v units =>
      rw [List.map_cons, List.map_cons, List.intercalate_cons_cons, List.intercalate_cons_cons,
        List.map_append, List.map_append, hu, ih (List.forall_mem_cons.mp h).2 hunits]
      rfl

theorem fields_join : fields (([' '].intercalate units).map plainPiece) =
    units.map fun u => u.map (Piece.char · false) := by
  by_cases hunits : units = []
  · subst hunits
    rfl
  · rw [map_join h, fields, List.splitOn_intercalate, List.filter_eq_self]
    · intro field hfield
      obtain ⟨u, hu, rfl⟩ := List.mem_map.mp hfield
      simpa using (h u hu).1
    · intro field hfield
      obtain ⟨u, hu, rfl⟩ := List.mem_map.mp hfield
      simp
    · simpa using hunits

end Joined

/-- Joining adds one character for each word but the first. -/
theorem length_join_add_one {units : List (List Char)} (h : units ≠ []) :
    ([' '].intercalate units).length + 1 = (units.map List.length).sum + units.length := by
  induction units with
  | nil => exact absurd rfl h
  | cons u units ih =>
    cases units with
    | nil => simp
    | cons v units =>
      have hrest := ih (List.cons_ne_nil v units)
      rw [List.intercalate_cons_cons, List.length_append, List.length_append, List.map_cons,
        List.sum_cons, List.length_singleton, List.length_cons]
      omega

/-! ### What is lost shows

In an environment where every expansion is longer than the text, the words show whether
there was one. -/

/-- All values are that long, and no path matches. -/
def longValues (n : ℕ) : Env where
  value _ := List.replicate n 'x'
  home _ := List.replicate n 'x'
  glob _ := []

theorem le_length_expand (n : ℕ) {item : Item} (h : ∀ x, item ≠ .piece x) :
    n ≤ (((longValues n).expand item).filterMap Piece.char?).length := by
  have hx : ¬ (IsBlank 'x' ∨ IsNewline 'x') := by decide
  have hchars : ∀ quoted, (((List.replicate n 'x').map (Piece.char · quoted)).filterMap
      Piece.char?).length = n := fun quoted => by
    rw [filterMap_chars, List.length_map, List.length_replicate]
  match item with
  | .piece x => exact absurd rfl (h x)
  | .tilde login => exact Nat.le_of_eq (hchars true).symm
  | .expansion text true => exact Nat.le_of_eq (hchars true).symm
  | .expansion text false =>
    have hplain : (List.replicate n 'x').map
        (fun c => if IsBlank c ∨ IsNewline c then Piece.sep else .char c false) =
        (List.replicate n 'x').map (Piece.char · false) :=
      List.map_congr_left fun c hc => by rw [List.eq_of_mem_replicate hc, if_neg hx]
    exact Nat.le_of_eq (by rw [Env.expand, longValues, hplain, hchars])

theorem length_expand_of_pieces (env : Env) {items : List Item}
    (h : ∀ item ∈ items, ∃ x, item = .piece x) :
    ((items.flatMap env.expand).filterMap Piece.char?).length +
      (items.flatMap env.expand).count .sep = weight items := by
  induction items with
  | nil => rfl
  | cons item items ih =>
    obtain ⟨⟨x, rfl⟩, hitems⟩ := List.forall_mem_cons.mp h
    have hrest := ih hitems
    rw [List.flatMap_cons, List.filterMap_append, List.length_append, List.count_append]
    have hitem : (((env.expand (.piece x)).filterMap Piece.char?).length +
        (env.expand (.piece x)).count .sep) = Item.weight (.piece x) := by
      cases x <;> rfl
    have hcons : weight (.piece x :: items) = Item.weight (.piece x) + weight items := rfl
    omega

/-- If joined words are found again, whatever the values are, their text is plain. -/
theorem plain_of_words {units : List (List Char)}
    (h : ∀ env, words sh env ([' '].intercalate units) = some units) :
    Plain false ([' '].intercalate units) := by
  by_cases hunits : units = []
  · subst hunits
    trivial
  have hlength := length_join_add_one hunits
  generalize htext : [' '].intercalate units = text at h hlength ⊢
  have hwords := h (longValues (text.length + 1))
  rw [words, paths_of_glob_nil fun _ => rfl] at hwords
  split_ifs at hwords with hnul
  obtain ⟨items, hscan, hitems⟩ := Option.map_eq_some_iff.mp hwords
  generalize hpieces : items.flatMap (longValues (text.length + 1)).expand = pieces at hitems
  rw [← List.map_eq_flatMap] at hitems
  have hchars : (pieces.filterMap Piece.char?).length = (units.map List.length).sum := by
    rw [← sum_length_word_fields, ← hitems, List.map_map]
    rfl
  have hseps : units.length ≤ pieces.count .sep + 1 := by
    rw [← hitems, List.length_map]
    exact length_fields_le pieces
  have hpiece : ∀ item ∈ items, ∃ x, item = .piece x := by
    intro item hitem
    by_contra hnone
    have hlong := le_length_expand (text.length + 1) (not_exists.mp hnone)
    have hsub : ((longValues (text.length + 1)).expand item).Sublist pieces := by
      rw [← hpieces, List.flatMap]
      exact List.sublist_flatten_of_mem (List.mem_map_of_mem hitem)
    have hle := (hsub.filterMap Piece.char?).length_le
    have hpos : units.length ≠ 0 := by simpa using hunits
    omega
  have hweight := length_expand_of_pieces (longValues (text.length + 1)) hpiece
  rw [hpieces] at hweight
  have hle := weight_scan_le hscan
  exact plain_of_weight hscan (by omega)

/-! ### Words that are found again -/

/-- A word that means nothing to the shell: it is not empty, no character of it separates,
quotes or expands, it begins neither a comment nor a tilde prefix, and it is no pattern. -/
structure Inert (sh : Shell) (u : List Char) : Prop extends Bare u where
  nonempty : u ≠ []
  no_nul : Char.ofNat 0 ∉ u
  no_pattern : isPattern sh (u.map (·, false)) = false

/-- What means something to the shell somewhere. -/
def specials : List Char :=
  [' ', Char.ofNat 9, ';', '&', '|', '<', '>', '(', ')', Char.ofNat 10, '$', backquote, quote,
    doubleQuote, backslash, '#', '~', '*', '?', '[', Char.ofNat 0]

def isSafe (c : Char) : Bool := !specials.contains c

theorem isSafe_iff {c : Char} : isSafe c = true ↔ c ∉ specials := by simp [isSafe]

theorem ordinary_of_isSafe {c : Char} (h : isSafe c = true) : Ordinary c := by
  rw [isSafe_iff] at h
  refine ⟨fun hc => h ?_, fun hc => h ?_, fun hc => h ?_, fun hc => h ?_⟩
  · rcases hc with rfl | rfl <;> decide
  · rcases hc with rfl | rfl | rfl | rfl | rfl | rfl | rfl | rfl <;> decide
  · rcases hc with rfl | rfl <;> decide
  · rcases hc with rfl | rfl | rfl <;> decide

theorem isSafe_of_isDigit {c : Char} (h : c.isDigit = true) : isSafe c = true := by
  have hspecials : specials.all (fun d => !d.isDigit) = true := by decide
  rw [isSafe_iff]
  intro hc
  have hnot := List.all_eq_true.mp hspecials c hc
  rw [h] at hnot
  cases hnot

theorem inert_of_isSafe {u : List Char} (hne : u ≠ []) (h : u.all isSafe = true) : Inert sh u := by
  rw [List.all_eq_true] at h
  have hnot : ∀ d ∈ specials, d ∉ u := fun d hd hdu => isSafe_iff.mp (h d hdu) hd
  have hpattern : ∀ d ∈ specials, (d, false) ∉ u.map (·, false) := by
    intro d hd hdu
    obtain ⟨c, hc, heq⟩ := List.mem_map.mp hdu
    cases heq
    exact hnot d hd hc
  refine ⟨⟨fun c hc => ordinary_of_isSafe (h c hc), fun hhead => ?_, fun hhead => ?_⟩, hne, ?_, ?_⟩
  · exact hnot '#' (by decide) (List.mem_of_mem_head? hhead)
  · exact hnot '~' (by decide) (List.mem_of_mem_head? hhead)
  · exact hnot _ (by decide)
  · have hbracket : sh.bracketPattern (u.map (·, false)) = false :=
      Bool.eq_false_iff.mpr fun hb => hpattern '[' (by decide) (sh.bracket_mem _ hb)
    simp only [isPattern, hbracket, hpattern '*' (by decide), hpattern '?' (by decide)]
    rfl

/-- A path that is none of the words that a pattern may stand for. -/
def otherPaths : Env where
  value _ := []
  home _ := []
  glob field := [field.map Prod.fst ++ ['x']]

theorem paths_chars (env : Env) (u : List Char) :
    paths sh env (u.map (Piece.char · false)) =
      if isPattern sh (u.map (·, false)) ∧ env.glob (u.map (·, false)) ≠ [] then
        env.glob (u.map (·, false))
      else [u] := by
  have hchars : (u.map (·, false)).map Prod.fst = u := by simp [Function.comp_def]
  simp only [paths, filterMap_chars, hchars]

/-- What joined words without blanks are read as. -/
theorem words_of_plain_join {units : List (List Char)}
    (hunits : ∀ u ∈ units, u ≠ [] ∧ ∀ c ∈ u, ¬ IsBlank c)
    (hplain : Plain false ([' '].intercalate units))
    (hnul : Char.ofNat 0 ∉ [' '].intercalate units) (env : Env) :
    words sh env ([' '].intercalate units) =
      some (units.flatMap fun u => paths sh env (u.map (Piece.char · false))) := by
  rw [words_of_plain hplain hnul, fields_join hunits, List.flatMap_map]

theorem mem_join {units : List (List Char)} {c : Char} (h : c ∈ [' '].intercalate units) :
    c = ' ' ∨ ∃ u ∈ units, c ∈ u := by
  induction units with
  | nil => cases h
  | cons u units ih =>
    cases units with
    | nil =>
      rw [List.intercalate_singleton] at h
      exact .inr ⟨u, List.mem_cons_self, h⟩
    | cons v units =>
      rw [List.intercalate_cons_cons, List.mem_append, List.mem_append, List.mem_singleton] at h
      rcases h with (h | h) | h
      · exact .inr ⟨u, List.mem_cons_self, h⟩
      · exact .inl h
      · exact (ih h).imp_right fun ⟨w, hw, hc⟩ => ⟨w, List.mem_cons_of_mem _ hw, hc⟩

theorem subset_join {units : List (List Char)} {u : List Char} (h : u ∈ units) :
    u ⊆ [' '].intercalate units := by
  induction units with
  | nil => cases h
  | cons v units ih =>
    cases units with
    | nil =>
      rw [List.mem_singleton.mp h, List.intercalate_singleton]
      exact List.Subset.refl _
    | cons w units =>
      rw [List.intercalate_cons_cons]
      rcases List.mem_cons.mp h with rfl | h
      · exact fun c hc => List.mem_append_left _ (List.mem_append_left _ hc)
      · exact fun c hc => List.mem_append_right _ (ih h hc)

/-- Where every pattern matches another path, a word shows whether it is a pattern. -/
theorem paths_otherPaths (u : List Char) : paths sh otherPaths (u.map (Piece.char · false)) =
    [if isPattern sh (u.map (·, false)) then u ++ ['x'] else u] := by
  rw [paths_chars]
  by_cases hpattern : isPattern sh (u.map (·, false)) = true <;>
    simp [hpattern, otherPaths, Function.comp_def]

theorem words_join_of_inert {units : List (List Char)} (h : ∀ u ∈ units, Inert sh u) (env : Env) :
    words sh env ([' '].intercalate units) = some units := by
  have hunits : ∀ u ∈ units, u ≠ [] ∧ ∀ c ∈ u, ¬ IsBlank c := fun u hu =>
    ⟨(h u hu).nonempty, fun c hc => ((h u hu).ordinary c hc).not_blank⟩
  have hplain := (plain_join_iff hunits).mpr fun u hu => (h u hu).toBare
  have hnul : Char.ofNat 0 ∉ [' '].intercalate units := by
    intro hmem
    rcases mem_join hmem with hspace | ⟨u, hu, hc⟩
    · revert hspace
      decide
    · exact (h u hu).no_nul hc
  have hpaths : ∀ u ∈ units, paths sh env (u.map (Piece.char · false)) = [u] := by
    intro u hu
    rw [paths_chars, if_neg fun hpattern => ?_]
    rw [(h u hu).no_pattern] at hpattern
    cases hpattern.1
  rw [words_of_plain_join hunits hplain hnul, List.flatMap_congr hpaths, ← List.map_eq_flatMap,
    List.map_id']

/-- Joined words are found again in every environment if and only if all are inert. -/
theorem words_join_iff (units : List (List Char)) :
    (∀ env, words sh env ([' '].intercalate units) = some units) ↔ ∀ u ∈ units, Inert sh u := by
  constructor
  · intro h
    have hplain := plain_of_words h
    have hnul : Char.ofNat 0 ∉ [' '].intercalate units := by
      intro hmem
      have hnone := h otherPaths
      rw [words, if_pos hmem] at hnone
      cases hnone
    have hunits : ∀ u ∈ units, u ≠ [] ∧ ∀ c ∈ u, ¬ IsBlank c := by
      intro u hu
      have hwords := h (longValues 0)
      rw [words_of_plain hplain hnul, paths_of_glob_nil fun _ => rfl, Option.some.injEq,
        ← List.map_eq_flatMap] at hwords
      rw [← hwords] at hu
      obtain ⟨field, hfield, rfl⟩ := List.mem_map.mp hu
      exact word_of_plain hfield
    have hbare := (plain_join_iff hunits).mp hplain
    have hother := h otherPaths
    rw [words_of_plain_join hunits hplain hnul, Option.some.injEq,
      List.flatMap_congr fun u _ => paths_otherPaths u, ← List.map_eq_flatMap] at hother
    intro u hu
    refine ⟨hbare u hu, (hunits u hu).1, fun hmem => hnul (subset_join hu hmem), ?_⟩
    rw [Bool.eq_false_iff]
    intro hpattern
    have hsame := List.map_inj_left.mp (hother.trans (List.map_id units).symm) u hu
    rw [if_pos hpattern] at hsame
    simp at hsame
  · exact words_join_of_inert

end Lobbyboy.Foundation.PosixShell
