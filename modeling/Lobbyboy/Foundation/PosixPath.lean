import Mathlib.Data.List.Basic

/-! Pure POSIX paths as `pathlib` keeps them: empty and `.` components are dropped,
`..` is kept, exactly two leading slashes are a root of their own. A path whose text is
written and parsed again is the same path. -/

namespace Lobbyboy.Foundation

inductive PathRoot where
  | relative | absolute | doubled
  deriving DecidableEq

def PathRoot.text : PathRoot → List Char
  | .relative => []
  | .absolute => ['/']
  | .doubled => ['/', '/']

/-- What may stand between two slashes. -/
def PathPart (p : List Char) : Prop := p ≠ [] ∧ p ≠ ['.'] ∧ '/' ∉ p

instance (p : List Char) : Decidable (PathPart p) := inferInstanceAs (Decidable (_ ∧ _ ∧ _))

@[ext] structure PosixPath where
  root : PathRoot
  parts : List (List Char)
  valid : ∀ p ∈ parts, PathPart p

deriving instance DecidableEq for PosixPath

namespace PosixPath

def splitRoot : List Char → PathRoot × List Char
  | '/' :: '/' :: '/' :: cs => (.absolute, cs.dropWhile (· = '/'))
  | '/' :: '/' :: cs => (.doubled, cs)
  | '/' :: cs => (.absolute, cs)
  | cs => (.relative, cs)

def parseChars (cs : List Char) : PosixPath where
  root := (splitRoot cs).1
  parts := ((splitRoot cs).2.splitOn '/').filter (PathPart ·)
  valid := fun p hp => by simpa using (List.mem_filter.mp hp).2

/-- `Path(s)`. -/
def parse (s : String) : PosixPath := parseChars s.toList

def strChars (p : PosixPath) : List Char :=
  if p.root = .relative ∧ p.parts = [] then ['.'] else p.root.text ++ ['/'].intercalate p.parts

/-- `str(p)`. -/
def str (p : PosixPath) : String := String.ofList p.strChars

/-- `p.joinpath(s)`: an absolute `s` replaces `p`. -/
def joinpath (p : PosixPath) (s : String) : PosixPath :=
  if (parse s).root = .relative then
    ⟨p.root, p.parts ++ (parse s).parts, fun q hq => by
      rcases List.mem_append.mp hq with h | h
      · exact p.valid q h
      · exact (parse s).valid q h⟩
  else parse s

/-- The path itself, or something below it. -/
def isAbove (p q : PosixPath) : Bool := p.root = q.root && p.parts.isPrefixOf q.parts

@[simp] theorem isAbove_self (p : PosixPath) : p.isAbove p = true := by simp [isAbove]

theorem isAbove_iff {p q : PosixPath} :
    p.isAbove q = true ↔ p.root = q.root ∧ p.parts <+: q.parts := by simp [isAbove]

theorem isAbove_trans {p q r : PosixPath} (h : p.isAbove q = true) (h' : q.isAbove r = true) :
    p.isAbove r = true := by
  rw [isAbove_iff] at h h' ⊢
  exact ⟨h.1.trans h'.1, h.2.trans h'.2⟩

theorem isAbove_antisymm {p q : PosixPath} (h : p.isAbove q = true) (h' : q.isAbove p = true) :
    p = q := by
  rw [isAbove_iff] at h h'
  ext1
  · exact h.1
  · exact h.2.eq_of_length_le h'.2.length_le

/-- The first parts. -/
def take (p : PosixPath) (n : ℕ) : PosixPath :=
  ⟨p.root, p.parts.take n, fun q hq => p.valid q (List.mem_of_mem_take hq)⟩

theorem take_isAbove (p : PosixPath) (n : ℕ) : (p.take n).isAbove p = true :=
  isAbove_iff.mpr ⟨rfl, List.take_prefix n _⟩

/-- `p.parent`. -/
def parent (p : PosixPath) : PosixPath := p.take (p.parts.length - 1)

/-- What lies properly above a path lies above its parent. -/
theorem isAbove_parent {p q : PosixPath} (h : p.isAbove q = true) (hne : p ≠ q) :
    p.isAbove q.parent = true := by
  rw [isAbove_iff] at h ⊢
  refine ⟨h.1, List.prefix_take_iff.mpr ⟨h.2, ?_⟩⟩
  have hlength : p.parts.length ≠ q.parts.length := fun heq =>
    hne (PosixPath.ext h.1 (h.2.eq_of_length heq))
  have hle := h.2.length_le
  omega

/-- The path and all that lies above it. -/
def ancestors (p : PosixPath) : List PosixPath := (List.range (p.parts.length + 1)).map p.take

theorem mem_ancestors {p q : PosixPath} : q ∈ p.ancestors ↔ q.isAbove p = true := by
  rw [ancestors, List.mem_map]
  constructor
  · rintro ⟨n, -, rfl⟩
    exact take_isAbove p n
  · intro h
    rw [isAbove_iff] at h
    refine ⟨q.parts.length, ?_, PosixPath.ext h.1.symm ?_⟩
    · rw [List.mem_range]
      have := h.2.length_le
      omega
    · exact (List.prefix_iff_eq_take.mp h.2).symm

/-- The joined parts of a path do not begin with a slash. -/
theorem intercalate_head {ps : List (List Char)} (h : ∀ p ∈ ps, PathPart p) :
    (['/'].intercalate ps).head? ≠ some '/' := by
  match ps with
  | [] => simp
  | p :: ps =>
    obtain ⟨hne, -, hs⟩ := h p (by simp)
    obtain ⟨c, cs, rfl⟩ := List.exists_cons_of_ne_nil hne
    have hc : c ≠ '/' := fun hc => hs (by simp [hc])
    cases ps <;> simpa [List.intercalate_cons_cons] using hc

theorem splitRoot_text_append (r : PathRoot) {cs : List Char} (h : cs.head? ≠ some '/') :
    splitRoot (r.text ++ cs) = (r, cs) := by
  match cs with
  | [] => cases r <;> rfl
  | c :: cs =>
    have hc : c ≠ '/' := by simpa using h
    cases r <;> simp [PathRoot.text, splitRoot, hc]

theorem filter_splitOn_intercalate {ps : List (List Char)} (h : ∀ p ∈ ps, PathPart p) :
    ((['/'].intercalate ps).splitOn '/').filter (PathPart ·) = ps := by
  by_cases hps : ps = []
  · subst hps; decide
  · rw [List.splitOn_intercalate '/' (fun p hp => (h p hp).2.2) hps, List.filter_eq_self]
    exact fun p hp => decide_eq_true (h p hp)

theorem parse_str (p : PosixPath) : parse p.str = p := by
  rw [parse, str, String.toList_ofList, strChars]
  split_ifs with hp
  · ext1
    · exact hp.1.symm
    · rw [hp.2]; decide
  · have hs := splitRoot_text_append p.root (intercalate_head p.valid)
    ext1
    · simp only [parseChars, hs]
    · simp only [parseChars, hs]
      exact filter_splitOn_intercalate p.valid

/-! ### What lies in a directory -/

section Child

variable {p : PosixPath} {name : String} {part : List Char}

/-- A name without slashes. -/
structure IsName (name : String) (part : List Char) : Prop where
  root : (parse name).root = .relative
  parts : (parse name).parts = [part]

instance : Decidable (IsName name part) :=
  decidable_of_iff (_ ∧ _) ⟨fun h => ⟨h.1, h.2⟩, fun h => ⟨h.root, h.parts⟩⟩

theorem root_child (h : IsName name part) : (p.joinpath name).root = p.root := by
  rw [joinpath, if_pos h.root]

theorem parts_child (h : IsName name part) : (p.joinpath name).parts = p.parts ++ [part] := by
  rw [joinpath, if_pos h.root, ← h.parts]

theorem parent_child (h : IsName name part) : (p.joinpath name).parent = p := by
  ext1
  · exact root_child h
  · simp [parent, take, parts_child h]

theorem isAbove_child (h : IsName name part) : p.isAbove (p.joinpath name) = true := by
  rw [isAbove_iff, root_child h, parts_child h]
  exact ⟨rfl, List.prefix_append _ _⟩

theorem child_not_isAbove (h : IsName name part) : (p.joinpath name).isAbove p = false := by
  rw [Bool.eq_false_iff, ne_eq, isAbove_iff, not_and]
  intro _ hprefix
  have hle := hprefix.length_le
  rw [parts_child h, List.length_append, List.length_singleton] at hle
  omega

theorem child_injective (h : IsName name part) {q : PosixPath}
    (heq : p.joinpath name = q.joinpath name) : p = q := by
  rw [← parent_child (p := p) h, heq, parent_child h]

theorem child_ne (h : IsName name part) {name' : String} {part' : List Char}
    (h' : IsName name' part') (hne : part ≠ part') (q : PosixPath) :
    p.joinpath name ≠ q.joinpath name' := by
  intro heq
  have hparts := congrArg PosixPath.parts heq
  rw [parts_child h, parts_child h'] at hparts
  exact hne (List.singleton_inj.mp (List.append_inj' hparts rfl).2)

/-- What lies above an entry of a directory, and is no such entry itself, lies above the
directory. -/
theorem isAbove_of_child (h : IsName name part) {name' : String} {part' : List Char}
    (h' : IsName name' part') (hne : part ≠ part') {q : PosixPath}
    (habove : (p.joinpath name).isAbove (q.joinpath name') = true) :
    (p.joinpath name).isAbove q = true := by
  have hparent := isAbove_parent habove (child_ne h h' hne q)
  rwa [parent_child h'] at hparent

end Child

/-! ### Paths that differ in their last letters -/

/-- Letters that are no slash are added to the last part. -/
theorem splitOn_append_of_not_mem (cs : List Char) :
    ∃ parts last, '/' ∉ last ∧
      ∀ d : List Char, '/' ∉ d → (cs ++ d).splitOn '/' = parts ++ [last ++ d] := by
  induction cs with
  | nil => exact ⟨[], [], List.not_mem_nil, fun d hd => List.splitOn_eq_singleton hd⟩
  | cons c cs ih =>
    obtain ⟨parts, last, hlast, h⟩ := ih
    by_cases hc : c = '/'
    · refine ⟨[] :: parts, last, hlast, fun d hd => ?_⟩
      rw [List.cons_append, List.splitOn_cons_eq_if_modifyHead, h d hd, hc]
      rfl
    · cases parts with
      | nil =>
        refine ⟨[], c :: last, List.not_mem_cons_of_ne_of_not_mem (Ne.symm hc) hlast, ?_⟩
        intro d hd
        rw [List.cons_append, List.splitOn_cons_eq_if_modifyHead, h d hd]
        simp [hc]
      | cons part parts =>
        refine ⟨(c :: part) :: parts, last, hlast, fun d hd => ?_⟩
        rw [List.cons_append, List.splitOn_cons_eq_if_modifyHead, h d hd]
        simp [hc]

theorem dropWhile_append_of_head {cs d : List Char} (hd : d.head? ≠ some '/') :
    (cs ++ d).dropWhile (· = '/') = cs.dropWhile (· = '/') ++ d := by
  induction cs with
  | nil =>
    cases d with
    | nil => rfl
    | cons c d => exact List.dropWhile_cons_of_neg (by simpa using hd)
  | cons c cs ih =>
    by_cases hc : c = '/' <;> simp [hc, ih]

theorem splitRoot_append (cs : List Char) {d : List Char} (hd : d.head? ≠ some '/') :
    splitRoot (cs ++ d) = ((splitRoot cs).1, (splitRoot cs).2 ++ d) := by
  cases cs with
  | nil => exact splitRoot_text_append .relative hd
  | cons c cs =>
    by_cases hc : c = '/'
    · subst hc
      cases cs with
      | nil => exact splitRoot_text_append .absolute hd
      | cons c cs =>
        by_cases hc : c = '/'
        · subst hc
          cases cs with
          | nil => exact splitRoot_text_append .doubled hd
          | cons c cs =>
            by_cases hc : c = '/'
            · subst hc
              exact congrArg (Prod.mk _) (dropWhile_append_of_head hd)
            · simp [splitRoot, hc]
        · simp [splitRoot, hc]
    · simp [splitRoot, hc]

/-- Where only the last letters of a text change, only the last part of the path does. -/
theorem exists_parse_append (cs : List Char) :
    ∃ root parts last, '/' ∉ last ∧ ∀ d : List Char, '/' ∉ d →
      (parseChars (cs ++ d)).root = root ∧
        (parseChars (cs ++ d)).parts = parts ++ [last ++ d].filter (PathPart ·) := by
  obtain ⟨parts, last, hlast, h⟩ := splitOn_append_of_not_mem (splitRoot cs).2
  refine ⟨(splitRoot cs).1, parts.filter (PathPart ·), last, hlast, fun d hslash => ?_⟩
  have hhead : d.head? ≠ some '/' := fun hd => hslash (List.mem_of_mem_head? hd)
  constructor
  · simp only [parseChars, splitRoot_append cs hhead]
  · simp only [parseChars, splitRoot_append cs hhead, h d hslash, List.filter_append]

/-- Letters that are no dots make a part. -/
theorem pathPart_append {last d : List Char} (hlast : '/' ∉ last) (hslash : '/' ∉ d)
    (hdot : ∃ c ∈ d, c ≠ '.') : PathPart (last ++ d) := by
  obtain ⟨c, hc, hne⟩ := hdot
  refine ⟨List.append_ne_nil_of_right_ne_nil _ (List.ne_nil_of_mem hc), fun hlone => ?_, ?_⟩
  · have hmem : c ∈ last ++ d := List.mem_append_right _ hc
    rw [hlone, List.mem_singleton] at hmem
    exact hne hmem
  · rw [List.mem_append, not_or]
    exact ⟨hlast, hslash⟩

theorem parse_append (cs : List Char) :
    ∃ root parts last, ∀ d : List Char, '/' ∉ d → (∃ c ∈ d, c ≠ '.') →
      (parseChars (cs ++ d)).root = root ∧ (parseChars (cs ++ d)).parts = parts ++ [last ++ d] := by
  obtain ⟨root, parts, last, hlast, h⟩ := exists_parse_append cs
  refine ⟨root, parts, last, fun d hslash hdot => ⟨(h d hslash).1, (h d hslash).2.trans ?_⟩⟩
  simp [pathPart_append hlast hslash hdot]

/-- The text is another path with such letters than without them. -/
theorem parse_append_ne (cs : List Char) {d : List Char} (hslash : '/' ∉ d)
    (hdot : ∃ c ∈ d, c ≠ '.') :
    (parseChars (cs ++ d)).root = (parseChars cs).root ∧
      (parseChars (cs ++ d)).parts ≠ (parseChars cs).parts := by
  obtain ⟨root, parts, last, hlast, h⟩ := exists_parse_append cs
  have hwith : (parseChars (cs ++ d)).parts = parts ++ [last ++ d] := by
    simpa [pathPart_append hlast hslash hdot] using (h d hslash).2
  have hwithout := h [] List.not_mem_nil
  rw [List.append_nil, List.append_nil] at hwithout
  refine ⟨(h d hslash).1.trans hwithout.1.symm, fun heq => ?_⟩
  rw [hwith, hwithout.2, List.append_cancel_left_eq] at heq
  by_cases hpart : PathPart last
  · obtain ⟨c, hc, -⟩ := hdot
    exact List.ne_nil_of_mem hc (by simpa [hpart] using heq)
  · simp [hpart] at heq

theorem joinpath_append_ne (p : PosixPath) (s : String) {t : String} (hslash : '/' ∉ t.toList)
    (hdot : ∃ c ∈ t.toList, c ≠ '.') : p.joinpath (s ++ t) ≠ p.joinpath s := by
  have hparse := parse_append_ne s.toList hslash hdot
  rw [← String.toList_append] at hparse
  obtain ⟨hroot, hparts⟩ : (parse (s ++ t)).root = (parse s).root ∧
      (parse (s ++ t)).parts ≠ (parse s).parts := hparse
  intro heq
  unfold joinpath at heq
  by_cases hrel : (parse s).root = .relative
  · rw [if_pos (hroot.trans hrel), if_pos hrel, PosixPath.mk.injEq] at heq
    exact hparts (List.append_cancel_left heq.2)
  · rw [if_neg (fun h => hrel (hroot.symm.trans h)), if_neg hrel] at heq
    exact hparts (congrArg PosixPath.parts heq)

/-- The empty path writes itself as `.`. -/
theorem str_ne_empty (p : PosixPath) : p.str ≠ "" := by
  intro h
  have hp := parse_str p
  rw [h] at hp
  rw [← hp] at h
  revert h; decide

end PosixPath

end Lobbyboy.Foundation
