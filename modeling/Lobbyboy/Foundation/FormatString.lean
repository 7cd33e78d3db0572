import Mathlib.Data.List.Basic
import Mathlib.Data.Nat.Notation
import Mathlib.Tactic.Common

/-! Templates with replacement fields, in the syntax of Python's `str.format`: a brace that
is meant as such is doubled, and a field has a name, a conversion behind `!` and a
specification behind `:`. A field is evaluated as soon as it is read, so one that fails is
found before a defect behind it. What a field stands for is left open. -/

namespace Lobbyboy.Foundation.FormatString

def openBrace : Char := Char.ofNat 123

def closeBrace : Char := Char.ofNat 125

/-- What is wrong with a template. -/
inductive Defect
  | singleOpen | singleClose | openInName | unterminated | noConversion | noColon | unmatched
  deriving DecidableEq

structure Field where
  name : List Char
  conversion : Option Char := none
  spec : Option (List Char) := none
  deriving DecidableEq

inductive Seg
  | char (c : Char)
  | field (f : Field)
  deriving DecidableEq

/-! ### Reading -/

/-- Whether a reader of a name is behind an open square bracket, after one more character. -/
def inIndex (index : Bool) (c : Char) : Bool := if index then c ≠ ']' else c = '['

def endsName (c : Char) : Bool := c = closeBrace || c = ':' || c = '!'

/-- The name, the character that ends it, and what follows. Between square brackets there is
no such character. -/
def readName : Bool → List Char → Except Defect (List Char × Char × List Char)
  | _, [] => .error .unterminated
  | index, c :: cs =>
    if !index && c = openBrace then .error .openInName
    else if !index && endsName c then .ok ([], c, cs)
    else (readName (inIndex index c) cs).map fun p => (c :: p.1, p.2)

/-- The text up to the brace that closes the field. Fields may be nested in it. -/
def readSpec : ℕ → List Char → Except Defect (List Char × List Char)
  | _, [] => .error .unmatched
  | depth, c :: cs =>
    if c = closeBrace then
      if depth = 0 then .ok ([], cs)
      else (readSpec (depth - 1) cs).map fun p => (c :: p.1, p.2)
    else (readSpec (if c = openBrace then depth + 1 else depth) cs).map fun p => (c :: p.1, p.2)

def withSpec (name : List Char) (conversion : Option Char) (cs : List Char) :
    Except Defect (Field × List Char) :=
  (readSpec 0 cs).map fun p => (⟨name, conversion, some p.1⟩, p.2)

/-- A field, behind its opening brace. -/
def readField (cs : List Char) : Except Defect (Field × List Char) :=
  match readName false cs with
  | .error e => .error e
  | .ok (name, c, rest) =>
    if c = closeBrace then .ok (⟨name, none, none⟩, rest)
    else if c = ':' then withSpec name none rest
    else
      match rest with
      | [] => .error .noConversion
      | [_] => .error .unmatched
      | k :: d :: rest =>
        if d = closeBrace then .ok (⟨name, some k, none⟩, rest)
        else if d = ':' then withSpec name (some k) rest
        else .error .noColon

/-- The segment with which a text begins. -/
def readSeg (c : Char) (cs : List Char) : Except Defect (Seg × List Char) :=
  if c = openBrace then
    match cs with
    | [] => .error .singleOpen
    | d :: ds =>
      if d = openBrace then .ok (.char c, ds)
      else (readField (d :: ds)).map fun p => (.field p.1, p.2)
  else if c = closeBrace then
    match cs with
    | [] => .error .singleClose
    | d :: ds => if d = closeBrace then .ok (.char c, ds) else .error .singleClose
  else .ok (.char c, cs)

/-- The segments of that many readings, up to the first defect. -/
def readSegs : ℕ → List Char → List Seg × Option Defect
  | 0, _ => ([], none)
  | _ + 1, [] => ([], none)
  | n + 1, c :: cs =>
    match readSeg c cs with
    | .error e => ([], some e)
    | .ok (s, rest) => ((readSegs n rest).map (s :: ·) id)

def read (template : List Char) : List Seg × Option Defect := readSegs template.length template

/-! ### Substitution -/

section Substitution

variable {ε : Type*} (defect : Defect → ε) (value : Field → Except ε (List Char))

def Seg.spelled : Seg → Except ε (List Char)
  | .char c => .ok [c]
  | .field f => value f

/-- What the segments stand for, one behind the other. -/
def spell : List Seg → Except ε (List Char)
  | [] => .ok []
  | s :: segs => do
    let v ← s.spelled value
    let out ← spell segs
    return v ++ out

def formatFrom : ℕ → List Char → Except ε (List Char)
  | 0, _ => .ok []
  | _ + 1, [] => .ok []
  | n + 1, c :: cs =>
    match readSeg c cs with
    | .error e => .error (defect e)
    | .ok (s, rest) => do
      let v ← s.spelled value
      let out ← formatFrom n rest
      return v ++ out

/-- `template.format(...)`. -/
def format (template : List Char) : Except ε (List Char) :=
  formatFrom defect value template.length template

end Substitution

/-! ### What a segment looks like -/

/-- The text of a name, from inside of square brackets or not. -/
def IsName : Bool → List Char → Prop
  | index, [] => index = false
  | index, c :: cs =>
    (index = false → c ≠ openBrace ∧ endsName c = false) ∧ IsName (inIndex index c) cs

/-- The text of a specification: the braces in it are matched. -/
def IsSpec : ℕ → List Char → Prop
  | depth, [] => depth = 0
  | depth, c :: cs =>
    if c = closeBrace then depth ≠ 0 ∧ IsSpec (depth - 1) cs
    else IsSpec (if c = openBrace then depth + 1 else depth) cs

structure Field.WellFormed (f : Field) : Prop where
  name : IsName false f.name
  spec : ∀ spec ∈ f.spec, IsSpec 0 spec

/-- What stands between a field's name and its closing brace. -/
def Field.suffix (f : Field) : List Char :=
  f.conversion.elim [] (fun k => ['!', k]) ++ f.spec.elim [] fun spec => ':' :: spec

def Field.text (f : Field) : List Char := f.name ++ (f.suffix ++ [closeBrace])

def Seg.WellFormed : Seg → Prop
  | .char _ => True
  | .field f => f.WellFormed

def Seg.text : Seg → List Char
  | .char c => if c = openBrace ∨ c = closeBrace then [c, c] else [c]
  | .field f => openBrace :: f.text

/-- The template with these segments. -/
def render (segs : List Seg) : List Char := segs.flatMap Seg.text

section Reading

variable {index : Bool} {depth : ℕ} {c : Char} {cs name spec rest : List Char} {f : Field}
  {s : Seg}

theorem map_eq_ok {ε α β : Type*} {g : α → β} {x : Except ε α} {b : β} :
    x.map g = .ok b ↔ ∃ a, x = .ok a ∧ g a = b := by
  cases x <;> simp [Except.map]

theorem readName_append (h : IsName index name) (hc : endsName c = true) (rest : List Char) :
    readName index (name ++ c :: rest) = .ok (name, c, rest) := by
  induction name generalizing index with
  | nil =>
    have hindex : index = false := h
    have hopen : c ≠ openBrace := by
      rintro rfl
      exact absurd hc (by decide)
    simp [readName, hindex, hopen, hc]
  | cons d name ih =>
    obtain ⟨hd, hname⟩ := h
    have hfirst : (!index && decide (d = openBrace)) = false := by
      cases index with
      | true => rfl
      | false => simpa using (hd rfl).1
    have hends : (!index && endsName d) = false := by
      cases index with
      | true => rfl
      | false => simpa using (hd rfl).2
    rw [List.cons_append, readName, hfirst, hends, ih hname]
    rfl

theorem isName_of_readName (h : readName index cs = .ok (name, c, rest)) :
    IsName index name ∧ endsName c = true ∧ cs = name ++ c :: rest := by
  induction cs generalizing index name with
  | nil => cases h
  | cons d cs ih =>
    rw [readName] at h
    split_ifs at h with hopen hends
    · cases h
      rw [Bool.and_eq_true, Bool.not_eq_true'] at hends
      exact ⟨hends.1, hends.2, rfl⟩
    · obtain ⟨⟨name, after⟩, hp, hpair⟩ := map_eq_ok.mp h
      cases hpair
      obtain ⟨hname, hc, rfl⟩ := ih hp
      refine ⟨⟨fun hindex => ?_, hname⟩, hc, rfl⟩
      subst hindex
      simpa using And.intro hopen hends

theorem readSpec_append (h : IsSpec depth spec) (rest : List Char) :
    readSpec depth (spec ++ closeBrace :: rest) = .ok (spec, rest) := by
  induction spec generalizing depth with
  | nil =>
    have hdepth : depth = 0 := h
    simp [readSpec, hdepth]
  | cons d spec ih =>
    rw [IsSpec] at h
    rw [List.cons_append, readSpec]
    split_ifs at h ⊢ with hclose hdepth hopen
    · exact absurd hdepth h.1
    · rw [ih h.2]
      rfl
    · rw [ih h]
      rfl
    · rw [ih h]
      rfl

theorem isSpec_of_readSpec (h : readSpec depth cs = .ok (spec, rest)) :
    IsSpec depth spec ∧ cs = spec ++ closeBrace :: rest := by
  induction cs generalizing depth spec with
  | nil => cases h
  | cons d cs ih =>
    rw [readSpec] at h
    by_cases hclose : d = closeBrace
    · rw [if_pos hclose] at h
      split_ifs at h with hdepth
      · cases h
        exact ⟨hdepth, by rw [hclose]; rfl⟩
      · obtain ⟨p, hp, hpair⟩ := map_eq_ok.mp h
        cases hpair
        obtain ⟨hspec, rfl⟩ := ih hp
        refine ⟨?_, rfl⟩
        rw [IsSpec, if_pos hclose]
        exact ⟨hdepth, hspec⟩
    · rw [if_neg hclose] at h
      obtain ⟨p, hp, hpair⟩ := map_eq_ok.mp h
      cases hpair
      obtain ⟨hspec, rfl⟩ := ih hp
      refine ⟨?_, rfl⟩
      rwa [IsSpec, if_neg hclose]

theorem withSpec_append {conversion : Option Char} (h : IsSpec 0 spec) (rest : List Char) :
    withSpec name conversion (spec ++ closeBrace :: rest) =
      .ok (⟨name, conversion, some spec⟩, rest) := by
  rw [withSpec, readSpec_append h]
  rfl

theorem withSpec_eq_ok {conversion : Option Char}
    (h : withSpec name conversion cs = .ok (f, rest)) :
    ∃ spec, f = ⟨name, conversion, some spec⟩ ∧ IsSpec 0 spec ∧
      cs = spec ++ closeBrace :: rest := by
  obtain ⟨p, hp, hpair⟩ := map_eq_ok.mp h
  cases hpair
  exact ⟨p.1, rfl, isSpec_of_readSpec hp⟩

theorem readField_append (h : f.WellFormed) (rest : List Char) :
    readField (f.text ++ rest) = .ok (f, rest) := by
  obtain ⟨name, conversion, spec⟩ := f
  obtain ⟨hname, hspec⟩ := h
  have htext : Field.text ⟨name, conversion, spec⟩ ++ rest =
      name ++ (Field.suffix ⟨name, conversion, spec⟩ ++ closeBrace :: rest) := by
    simp [Field.text]
  rw [htext, readField]
  cases conversion with
  | none =>
    cases spec with
    | none =>
      rw [Field.suffix, Option.elim, Option.elim, List.nil_append, List.nil_append,
        readName_append hname (by decide)]
      rfl
    | some spec =>
      rw [Field.suffix, Option.elim, Option.elim, List.nil_append, List.cons_append,
        readName_append hname (by decide)]
      exact withSpec_append (hspec spec rfl) rest
  | some k =>
    cases spec with
    | none =>
      rw [Field.suffix, Option.elim, Option.elim, List.append_nil, List.cons_append,
        readName_append hname (by decide)]
      rfl
    | some spec =>
      rw [Field.suffix, Option.elim, Option.elim, List.append_assoc, List.cons_append,
        readName_append hname (by decide)]
      exact withSpec_append (hspec spec rfl) rest

theorem wellFormed_of_readField (h : readField cs = .ok (f, rest)) :
    f.WellFormed ∧ cs = f.text ++ rest := by
  rw [readField] at h
  split at h
  · cases h
  · next name c after hread =>
    obtain ⟨hname, hc, rfl⟩ := isName_of_readName hread
    split_ifs at h with hclose hcolon
    · cases h
      exact ⟨⟨hname, fun _ hspec => by cases hspec⟩, by simp [Field.text, Field.suffix, hclose]⟩
    · obtain ⟨spec, rfl, hspec, rfl⟩ := withSpec_eq_ok h
      refine ⟨⟨hname, fun s hs => ?_⟩, by simp [Field.text, Field.suffix, hcolon]⟩
      cases hs
      exact hspec
    · have hbang : c = '!' := by simpa [endsName, hclose, hcolon] using hc
      split at h
      · cases h
      · cases h
      · split_ifs at h with hclose' hcolon'
        · cases h
          refine ⟨⟨hname, fun _ hspec => by cases hspec⟩, ?_⟩
          simp [Field.text, Field.suffix, hbang, hclose']
        · obtain ⟨spec, rfl, hspec, rfl⟩ := withSpec_eq_ok h
          refine ⟨⟨hname, fun s hs => ?_⟩, by simp [Field.text, Field.suffix, hbang, hcolon']⟩
          cases hs
          exact hspec

/-- Behind its brace a field does not begin with another. -/
theorem field_text_cons (h : f.WellFormed) : ∃ d ds, f.text = d :: ds ∧ d ≠ openBrace := by
  obtain ⟨name, conversion, spec⟩ := f
  obtain ⟨hname, -⟩ := h
  cases name with
  | cons d name => exact ⟨d, _, rfl, (hname.1 rfl).1⟩
  | nil =>
    cases conversion with
    | some k => exact ⟨'!', _, rfl, by decide⟩
    | none =>
      cases spec with
      | some spec => exact ⟨':', _, rfl, by decide⟩
      | none => exact ⟨closeBrace, _, rfl, by decide⟩

theorem readSeg_plain (hopen : c ≠ openBrace) (hclose : c ≠ closeBrace) (cs : List Char) :
    readSeg c cs = .ok (.char c, cs) := by
  simp [readSeg, hopen, hclose]

theorem readSeg_brace (h : c = openBrace ∨ c = closeBrace) (cs : List Char) :
    readSeg c (c :: cs) = .ok (.char c, cs) := by
  rcases h with rfl | rfl <;> rfl

theorem readSeg_field {d : Char} (hd : d ≠ openBrace) (ds : List Char) :
    readSeg openBrace (d :: ds) = (readField (d :: ds)).map fun p => (.field p.1, p.2) := by
  simp [readSeg, hd]

theorem readSeg_append (h : s.WellFormed) (rest : List Char) :
    ∃ c cs, s.text ++ rest = c :: cs ∧ readSeg c cs = .ok (s, rest) := by
  cases s with
  | char c =>
    rw [Seg.text]
    split_ifs with hbrace
    · exact ⟨c, c :: rest, rfl, readSeg_brace hbrace rest⟩
    · rw [not_or] at hbrace
      exact ⟨c, rest, rfl, readSeg_plain hbrace.1 hbrace.2 rest⟩
  | field f =>
    obtain ⟨d, ds, htext, hd⟩ := field_text_cons h
    refine ⟨openBrace, f.text ++ rest, rfl, ?_⟩
    have hfield := readField_append h rest
    rw [htext] at hfield ⊢
    rw [List.cons_append] at hfield ⊢
    rw [readSeg_field hd, hfield]
    rfl

theorem wellFormed_of_readSeg (h : readSeg c cs = .ok (s, rest)) :
    s.WellFormed ∧ c :: cs = s.text ++ rest := by
  unfold readSeg at h
  split_ifs at h with hopen hclose
  · split at h
    · cases h
    · split_ifs at h with hdouble
      · cases h
        refine ⟨trivial, ?_⟩
        rw [Seg.text, if_pos (.inl hopen), hdouble, hopen]
        rfl
      · obtain ⟨p, hp, hpair⟩ := map_eq_ok.mp h
        cases hpair
        obtain ⟨hfield, htext⟩ := wellFormed_of_readField hp
        refine ⟨hfield, ?_⟩
        rw [htext, hopen]
        rfl
  · split at h
    · cases h
    · split_ifs at h with hdouble
      cases h
      refine ⟨trivial, ?_⟩
      rw [Seg.text, if_pos (.inr hclose), hdouble, hclose]
      rfl
  · cases h
    refine ⟨trivial, ?_⟩
    rw [Seg.text, if_neg (by rw [not_or]; exact ⟨hopen, hclose⟩)]
    rfl

theorem length_of_readSeg (h : readSeg c cs = .ok (s, rest)) : rest.length ≤ cs.length := by
  have hlength := congrArg List.length (wellFormed_of_readSeg h).2
  have hpos : 1 ≤ s.text.length := by
    cases s with
    | char c =>
      rw [Seg.text]
      split_ifs <;> simp
    | field f => exact Nat.le_add_left 1 _
  rw [List.length_cons, List.length_append] at hlength
  omega

end Reading

/-! ### Reading and writing -/

section RoundTrip

variable {n : ℕ} {segs : List Seg} {template : List Char}

theorem readSegs_cons (n : ℕ) (c : Char) (cs : List Char) :
    readSegs (n + 1) (c :: cs) =
      match readSeg c cs with
      | .error e => ([], some e)
      | .ok (s, rest) => ((readSegs n rest).map (s :: ·) id) := rfl

theorem readSegs_render (h : ∀ s ∈ segs, s.WellFormed) (hn : (render segs).length ≤ n) :
    readSegs n (render segs) = (segs, none) := by
  induction segs generalizing n with
  | nil => cases n <;> rfl
  | cons s segs ih =>
    have hs := h s List.mem_cons_self
    have hrender : render (s :: segs) = s.text ++ render segs := rfl
    obtain ⟨c, cs, htext, hread⟩ := readSeg_append hs (render segs)
    have hlength := length_of_readSeg hread
    rw [hrender, htext] at hn ⊢
    rw [List.length_cons] at hn
    obtain ⟨n, rfl⟩ := Nat.exists_eq_add_of_le' (Nat.one_le_of_lt hn)
    rw [readSegs_cons, hread]
    show (readSegs n (render segs)).map (s :: ·) id = _
    rw [ih (fun s' hs' => h s' (List.mem_cons_of_mem _ hs'))
      (Nat.le_trans hlength (Nat.le_of_succ_le_succ hn))]
    rfl

theorem render_of_readSegs (hn : template.length ≤ n) (h : readSegs n template = (segs, none)) :
    (∀ s ∈ segs, s.WellFormed) ∧ template = render segs := by
  induction n generalizing template segs with
  | zero =>
    cases h
    exact ⟨by simp, List.length_eq_zero_iff.mp (Nat.le_zero.mp hn)⟩
  | succ n ih =>
    cases template with
    | nil =>
      cases h
      exact ⟨by simp, rfl⟩
    | cons c cs =>
      rw [readSegs_cons] at h
      split at h
      · cases h
      · next s rest hread =>
        obtain ⟨hs, htext⟩ := wellFormed_of_readSeg hread
        have hlength := length_of_readSeg hread
        obtain ⟨segs', hsegs⟩ : ∃ segs', readSegs n rest = (segs', none) :=
          ⟨(readSegs n rest).1, Prod.ext rfl (congrArg Prod.snd h :)⟩
        rw [hsegs] at h
        cases h
        obtain ⟨hall, hrest⟩ := ih (Nat.le_trans hlength (Nat.le_of_succ_le_succ hn)) hsegs
        refine ⟨List.forall_mem_cons.mpr ⟨hs, hall⟩, ?_⟩
        rw [htext, hrest]
        rfl

/-- A template has no defect if and only if it is one of well-formed segments, which the
reader then finds. -/
theorem read_eq_iff :
    read template = (segs, none) ↔ (∀ s ∈ segs, s.WellFormed) ∧ template = render segs := by
  constructor
  · exact render_of_readSegs (Nat.le_refl _)
  · rintro ⟨h, rfl⟩
    exact readSegs_render h (Nat.le_refl _)

end RoundTrip

/-! ### Reading first -/

section Format

variable {ε : Type*} (defect : Defect → ε) (value : Field → Except ε (List Char))

/-- To evaluate the fields as they are read is to read the template up to its first defect,
to evaluate what was read, and then to fail for the defect. -/
theorem format_eq (template : List Char) :
    format defect value template = (spell value (read template).1).bind fun out =>
      (read template).2.elim (.ok out) fun e => .error (defect e) := by
  suffices h : ∀ n cs, formatFrom defect value n cs =
      (spell value (readSegs n cs).1).bind fun out =>
        (readSegs n cs).2.elim (.ok out) fun e => .error (defect e) from h _ _
  intro n
  induction n with
  | zero => exact fun _ => rfl
  | succ n ih =>
    intro cs
    cases cs with
    | nil => rfl
    | cons c cs =>
      rw [formatFrom, readSegs_cons]
      cases readSeg c cs with
      | error e => rfl
      | ok p =>
        obtain ⟨s, rest⟩ := p
        show (s.spelled value >>= fun v => formatFrom defect value n rest >>= fun out =>
          pure (v ++ out)) = _
        rw [ih rest]
        show _ = Except.bind (s.spelled value >>= fun v => spell value (readSegs n rest).1 >>=
          fun out => pure (v ++ out)) _
        cases s.spelled value with
        | error e => rfl
        | ok v =>
          cases spell value (readSegs n rest).1 with
          | error e => rfl
          | ok out =>
            show Except.bind ((readSegs n rest).2.elim _ _) _ =
              (readSegs n rest).2.elim _ _
            cases (readSegs n rest).2 <;> rfl

variable {defect value}

theorem format_eq_ok_iff {template out : List Char} :
    format defect value template = .ok out ↔ ∃ segs, (∀ s ∈ segs, s.WellFormed) ∧
      template = render segs ∧ spell value segs = .ok out := by
  rw [format_eq]
  constructor
  · intro h
    cases hspell : spell value (read template).1 with
    | error e =>
      rw [hspell] at h
      cases h
    | ok v =>
      rw [hspell] at h
      cases hdefect : (read template).2 with
      | some e =>
        rw [hdefect] at h
        cases h
      | none =>
        rw [hdefect] at h
        cases h
        obtain ⟨hall, htemplate⟩ := read_eq_iff.mp (Prod.ext rfl hdefect)
        exact ⟨_, hall, htemplate, hspell⟩
  · rintro ⟨segs, hall, htemplate, hspell⟩
    rw [read_eq_iff.mpr ⟨hall, htemplate⟩, hspell]
    rfl

theorem not_ok_of_defect {template out : List Char} {e : Defect} (h : (read template).2 = some e) :
    format defect value template ≠ .ok out := by
  intro hok
  obtain ⟨segs, hall, htemplate, -⟩ := format_eq_ok_iff.mp hok
  rw [read_eq_iff.mpr ⟨hall, htemplate⟩] at h
  cases h

end Format

/-! ### One argument -/

section Keyword

variable {ε : Type*} (key : List Char) (others : Field → Except ε (List Char)) (arg : List Char)

/-- The field stands for the argument as it is: `!s` and an empty specification change
nothing of a string. -/
def Field.IsPlain (f : Field) : Prop :=
  f.name = key ∧ f.conversion ∈ [none, some 's'] ∧ f.spec.getD [] = []

instance (f : Field) : Decidable (f.IsPlain key) := inferInstanceAs (Decidable (_ ∧ _))

/-- The value of a field, of a string that is given as the argument `key`. What the other
fields give is left open: attributes, conversions, specifications, other names. -/
def keyword (f : Field) : Except ε (List Char) := if f.IsPlain key then .ok arg else others f

def Seg.IsPlain : Seg → Prop
  | .char _ => True
  | .field f => f.IsPlain key

def Seg.fill : Seg → List Char
  | .char c => [c]
  | .field _ => arg

variable {key}

theorem spell_keyword {segs : List Seg} (h : ∀ s ∈ segs, s.IsPlain key) :
    spell (keyword key others arg) segs = .ok (segs.flatMap (Seg.fill arg)) := by
  induction segs with
  | nil => rfl
  | cons s segs ih =>
    have hs : s.spelled (keyword key others arg) = .ok (s.fill arg) := by
      cases s with
      | char c => rfl
      | field f => exact if_pos (h _ List.mem_cons_self)
    rw [spell, hs, ih fun s' hs' => h s' (List.mem_cons_of_mem _ hs')]
    rfl

end Keyword

end Lobbyboy.Foundation.FormatString
