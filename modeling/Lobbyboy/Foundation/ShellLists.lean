import Lobbyboy.Foundation.PosixShell
import Mathlib.Data.List.Forall2

/-! And-lists: commands of which the next is run if the one before it has succeeded. A list of
commands is written with `&&` between them; the shell finds the same words again, whatever
the variables and the files are, if and only if all of them are inert. What shows a text that
means more than it says is that a character is lost: no character of a quotation, expansion,
comment or tilde prefix is found again where the words have it. -/

namespace Lobbyboy.Foundation.PosixShell

variable (sh : Shell)

/-! ### The shell -/

def endsCommand : Mode → Char → List Char → Bool
  | .unquoted _, c, cs => c = '&' && cs.head? = some '&'
  | _, _, _ => false

/-- What is found in each command. -/
def scanAnd : ℕ → Mode → List Char → Option (List (List Item))
  | 0, m, [] => if m.mayEnd then some [[]] else none
  | _ + 1, _, [] => none
  | n + 1, m, _ :: cs => scanAnd n m cs
  | 0, m, c :: cs =>
    if endsCommand m c cs then (scanAnd 1 (.unquoted false) cs).map ([] :: ·)
    else
      match step sh m c cs with
      | none => none
      | some (items, n, m') => (scanAnd n m' cs).map (List.modifyHead (items ++ ·))

/-- Nothing but blanks: the shell misses a command. -/
def isBlankCommand (items : List Item) : Bool := items.all (· = .piece .sep)

/-- The words of each command of an and-list. -/
def andWords (env : Env) (text : List Char) : Option (List (List (List Char))) :=
  if Char.ofNat 0 ∈ text then none
  else (scanAnd sh 0 (.unquoted false) text).bind fun commands =>
    if commands.any isBlankCommand then none
    else some (commands.map fun items => (fields (items.flatMap env.expand)).flatMap (paths sh env))

/-! ### Counting characters -/

variable {sh}

def Item.char? : Item → Option Char
  | .piece (.char c _) => some c
  | _ => none

/-- The characters of the text that are found again as such. -/
def chars (items : List Item) : List Char := items.filterMap Item.char?

theorem chars_append (items items' : List Item) :
    chars (items ++ items') = chars items ++ chars items' := List.filterMap_append

theorem chars_step {m m' : Mode} {c : Char} {cs : List Char} {items : List Item} {n : ℕ}
    (h : step sh m c cs = some (items, n, m')) : chars items = [] ∨ chars items = [c] := by
  unfold step stepUnquoted stepDouble stepEscaped at h
  cases hexpansion : expansionLength sh c cs with
  | none => grind [chars, Item.char?]
  | some k => grind [chars, Item.char?]

theorem flatten_modifyHead {α : Type} (l : List α) {ls : List (List α)} (h : ls ≠ []) :
    (ls.modifyHead (l ++ ·)).flatten = l ++ ls.flatten := by
  cases ls with
  | nil => exact absurd rfl h
  | cons l' ls => simp

theorem scanAnd_ne_nil {n : ℕ} {m : Mode} {text : List Char} {commands : List (List Item)}
    (h : scanAnd sh n m text = some commands) : commands ≠ [] := by
  induction text generalizing n m commands with
  | nil =>
    cases n with
    | zero =>
      rw [scanAnd] at h
      split_ifs at h
      cases h
      exact List.cons_ne_nil _ _
    | succ n => cases h
  | cons c cs ih =>
    cases n with
    | succ n => exact ih h
    | zero =>
      rw [scanAnd] at h
      split_ifs at h
      · obtain ⟨rest, -, rfl⟩ := Option.map_eq_some_iff.mp h
        exact List.cons_ne_nil _ _
      · split at h
        · cases h
        · obtain ⟨rest, hrest, rfl⟩ := Option.map_eq_some_iff.mp h
          rw [ne_eq, List.modifyHead_eq_nil_iff]
          exact ih hrest

/-- No character is found more often than it is there. -/
theorem count_scanAnd_le {n : ℕ} {m : Mode} {text : List Char} {commands : List (List Item)}
    (h : scanAnd sh n m text = some commands) (q : Char) :
    (chars commands.flatten).count q ≤ text.count q := by
  induction text generalizing n m commands with
  | nil =>
    cases n with
    | zero =>
      rw [scanAnd] at h
      split_ifs at h
      cases h
      exact Nat.le_refl _
    | succ n => cases h
  | cons c cs ih =>
    have hcons : cs.count q ≤ (c :: cs).count q := List.count_le_count_cons
    cases n with
    | succ n => exact Nat.le_trans (ih h) hcons
    | zero =>
      rw [scanAnd] at h
      split_ifs at h
      · obtain ⟨rest, hrest, rfl⟩ := Option.map_eq_some_iff.mp h
        have hle := ih hrest
        exact Nat.le_trans hle hcons
      · split at h
        · cases h
        · next items n m' hstep =>
          obtain ⟨rest, hrest, rfl⟩ := Option.map_eq_some_iff.mp h
          rw [flatten_modifyHead _ (scanAnd_ne_nil hrest), chars_append, List.count_append]
          have hle := ih hrest
          rcases chars_step hstep with hnone | hone
          · rw [hnone, List.count_nil]
            omega
          · rw [hone, List.count_cons, List.count_cons, List.count_nil]
            omega

/-! ### Texts of which nothing is lost -/

/-- The texts of commands, one behind the other. -/
def andJoin (parts : List (List Char)) : List Char := ['&', '&'].intercalate parts

/-- What is found in a plain text. -/
def plainItems (part : List Char) : List Item := part.map fun c => .piece (plainPiece c)

theorem andJoin_cons {part : List Char} {parts : List (List Char)} (h : parts ≠ []) :
    andJoin (part :: parts) = part ++ '&' :: '&' :: andJoin parts := by
  obtain ⟨p, ps, rfl⟩ := List.exists_cons_of_ne_nil h
  rw [andJoin, List.intercalate_cons_cons, List.append_assoc]
  rfl

theorem mem_andJoin {parts : List (List Char)} {c : Char} (h : c ∈ andJoin parts) :
    c = '&' ∨ ∃ part ∈ parts, c ∈ part := by
  induction parts with
  | nil => cases h
  | cons part parts ih =>
    by_cases hparts : parts = []
    · subst hparts
      rw [andJoin, List.intercalate_singleton] at h
      exact .inr ⟨part, List.mem_cons_self, h⟩
    · rw [andJoin_cons hparts, List.mem_append, List.mem_cons, List.mem_cons] at h
      rcases h with h | h | h | h
      · exact .inr ⟨part, List.mem_cons_self, h⟩
      · exact .inl h
      · exact .inl h
      · exact (ih h).imp_right fun ⟨p, hp, hc⟩ => ⟨p, List.mem_cons_of_mem _ hp, hc⟩

theorem subset_andJoin {parts : List (List Char)} {part : List Char} (h : part ∈ parts) :
    part ⊆ andJoin parts := by
  induction parts with
  | nil => cases h
  | cons p ps ih =>
    by_cases hps : ps = []
    · subst hps
      rw [List.mem_singleton.mp h, andJoin, List.intercalate_singleton]
      exact List.Subset.refl _
    · rw [andJoin_cons hps]
      rcases List.mem_cons.mp h with rfl | h
      · exact fun c hc => List.mem_append_left _ hc
      · exact fun c hc => List.mem_append_right _
          (List.mem_cons_of_mem _ (List.mem_cons_of_mem _ (ih h hc)))

/-- Between characters without a meaning, every login ends where it may. -/
theorem endsLogin_of_known {text : List Char}
    (h : ∀ c ∈ text, IsBlank c ∨ IsOperator c ∨ Ordinary c) :
    endsLogin (text.dropWhile isLoginChar) = true := by
  cases hrest : text.dropWhile isLoginChar with
  | nil => rfl
  | cons c rest =>
    have hmem : c ∈ text := (List.dropWhile_sublist _).subset (hrest ▸ List.mem_cons_self)
    have hnot : isLoginChar c = false := by
      have hhead := List.head?_dropWhile_not isLoginChar text
      rw [hrest] at hhead
      simpa using hhead
    rw [isLoginChar, decide_eq_false_iff_not] at hnot
    rw [endsLogin, decide_eq_true_eq]
    rcases h c hmem with hblank | hoperator | hordinary
    · exact .inr (.inl hblank)
    · exact .inr (.inr hoperator)
    · exact .inl (by_contra fun hslash => hnot ⟨hordinary, hslash⟩)

/-- A step outside of quotations: what separates, what is found as it is, and what is lost. -/
theorem stepUnquoted_found {inWord : Bool} {c : Char} {cs : List Char} {items : List Item} {n : ℕ}
    {m' : Mode} (h : stepUnquoted sh inWord c cs = some (items, n, m')) :
    IsBlank c ∧ items = [.piece .sep] ∧ n = 0 ∧ m' = .unquoted false ∨
      Ordinary c ∧ items = [.piece (.char c false)] ∧ n = 0 ∧ m' = .unquoted true ∧
        (inWord = false → c ≠ '#') ∧
        (inWord = false → c = '~' → endsLogin (cs.dropWhile isLoginChar) = false) ∨
      ¬ IsBlank c ∧ ¬ IsOperator c ∧ chars items = [] := by
  unfold stepUnquoted at h
  split_ifs at h with hblank hoperator hquote hdouble hbackslash hexpansion hcomment htilde
  · cases h
    exact .inl ⟨hblank, rfl, rfl, rfl⟩
  · cases h
    exact .inr (.inr ⟨hblank, hoperator, rfl⟩)
  · cases h
    exact .inr (.inr ⟨hblank, hoperator, rfl⟩)
  · cases h
    exact .inr (.inr ⟨hblank, hoperator, rfl⟩)
  · obtain ⟨k, -, hk⟩ := Option.map_eq_some_iff.mp h
    cases hk
    exact .inr (.inr ⟨hblank, hoperator, rfl⟩)
  · cases h
    exact .inr (.inr ⟨hblank, hoperator, rfl⟩)
  · cases h
    exact .inr (.inr ⟨hblank, hoperator, rfl⟩)
  · cases h
    have hordinary : Ordinary c :=
      ⟨hblank, hoperator, hexpansion, fun hq => hq.elim hquote fun hq => hq.elim hdouble hbackslash⟩
    refine .inr (.inl ⟨hordinary, rfl, rfl, rfl, fun hstart hc => hcomment ⟨hc, hstart⟩, ?_⟩)
    exact fun hstart hc => Bool.eq_false_iff.mpr fun hends => htilde ⟨hc, hstart, hends⟩

/-- A text of which only spaces and ampersands are lost is plain between the ampersands. -/
theorem parts_of_count {inWord : Bool} {text : List Char} {commands : List (List Item)}
    (h : scanAnd sh 0 (.unquoted inWord) text = some commands)
    (hcount : ∀ q, q ≠ ' ' → q ≠ '&' → text.count q ≤ (chars commands.flatten).count q) :
    ∃ part parts, text = andJoin (part :: parts) ∧ Plain inWord part ∧
      (∀ p ∈ parts, Plain false p) ∧ commands = (part :: parts).map plainItems := by
  induction hn : text.length using Nat.strongRecOn generalizing inWord text commands with
  | _ k ih =>
  cases text with
  | nil =>
    cases h
    exact ⟨[], [], rfl, trivial, by simp, rfl⟩
  | cons c cs =>
    rw [scanAnd] at h
    split_ifs at h with hend
    · rw [endsCommand, Bool.and_eq_true, decide_eq_true_eq, decide_eq_true_eq] at hend
      obtain ⟨rfl, hhead⟩ := hend
      obtain ⟨cs, rfl⟩ : ∃ cs', cs = '&' :: cs' := by
        cases cs with
        | nil => cases hhead
        | cons d ds =>
          cases hhead
          exact ⟨ds, rfl⟩
      obtain ⟨rest, hrest, rfl⟩ := Option.map_eq_some_iff.mp h
      have hshorter : cs.length < k := by rw [← hn, List.length_cons, List.length_cons]; omega
      obtain ⟨part, parts, rfl, hpart, hparts, rfl⟩ := ih cs.length hshorter
        (show scanAnd sh 0 (.unquoted false) cs = some rest from hrest)
        (fun q hq hq' => by
          have hkeep := hcount q hq hq'
          rwa [List.count_cons_of_ne (Ne.symm hq'), List.count_cons_of_ne (Ne.symm hq')] at hkeep)
        rfl
      refine ⟨[], part :: parts, ?_, trivial, List.forall_mem_cons.mpr ⟨hpart, hparts⟩, rfl⟩
      rw [andJoin_cons (List.cons_ne_nil _ _)]
      rfl
    · split at h
      · cases h
      · next items n m' hstep =>
        obtain ⟨rest, hrest, rfl⟩ := Option.map_eq_some_iff.mp h
        rw [flatten_modifyHead _ (scanAnd_ne_nil hrest), chars_append] at hcount
        have hshorter : cs.length < k := by rw [← hn, List.length_cons]; exact Nat.lt_succ_self _
        -- a character other than a space is lost in none of the ways
        have hkept : c ≠ ' ' → c ≠ '&' → chars items ≠ [] := by
          intro hspace hand hnone
          have hc := hcount c hspace hand
          rw [hnone, List.nil_append, List.count_cons_self] at hc
          have hle := count_scanAnd_le hrest c
          omega
        rcases stepUnquoted_found hstep with ⟨hblank, rfl, rfl, rfl⟩ |
          ⟨hc, rfl, rfl, rfl, hcomment, htilde⟩ | ⟨hblank, hoperator, hnone⟩
        · obtain rfl : c = ' ' := by
            by_contra hspace
            refine hkept hspace ?_ rfl
            rintro rfl
            revert hblank
            decide
          obtain ⟨part, parts, rfl, hpart, hparts, rfl⟩ := ih cs.length hshorter hrest
            (fun q hq hq' => by
              have hkeep := hcount q hq hq'
              rwa [List.count_cons_of_ne (Ne.symm hq)] at hkeep) rfl
          refine ⟨' ' :: part, parts, ?_, ?_, hparts, ?_⟩
          · cases parts with
            | nil => rfl
            | cons p ps => rfl
          · rw [Plain, if_pos (.inl rfl)]
            exact hpart
          · rfl
        · obtain ⟨part, parts, rfl, hpart, hparts, rfl⟩ := ih cs.length hshorter hrest
            (fun q hq hq' => by
              have hkeep := hcount q hq hq'
              have hone : chars [.piece (.char c false)] = [c] := rfl
              rw [hone, List.singleton_append, List.count_cons, List.count_cons] at hkeep
              omega) rfl
          have hknown : ∀ d ∈ andJoin (part :: parts), IsBlank d ∨ IsOperator d ∨ Ordinary d := by
            intro d hd
            rcases mem_andJoin hd with rfl | ⟨p, hp, hdp⟩
            · exact .inr (.inl (by decide))
            · rcases List.mem_cons.mp hp with rfl | hp
              · exact (blank_or_ordinary hpart d hdp).imp_right .inr
              · exact (blank_or_ordinary (hparts p hp) d hdp).imp_right .inr
          refine ⟨c :: part, parts, ?_, ?_, hparts, ?_⟩
          · cases parts with
            | nil => rfl
            | cons p ps => rfl
          · rw [Plain, if_neg hc.not_blank]
            refine ⟨hc, fun hstart => ⟨hcomment hstart, fun heq => ?_⟩, hpart⟩
            rw [endsLogin_of_known hknown] at htilde
            cases htilde hstart heq
          · simp [plainItems, plainPiece, hc.not_blank]
        · refine absurd hnone (hkept (fun hspace => hblank (.inl hspace)) ?_)
          rintro rfl
          exact hoperator (by decide)

/-- A plain text in front of the rest. -/
theorem scanAnd_append {inWord : Bool} {part : List Char} (h : Plain inWord part)
    (rest : List Char) : ∃ inWord', scanAnd sh 0 (.unquoted inWord) (part ++ rest) =
      (scanAnd sh 0 (.unquoted inWord') rest).map (List.modifyHead (plainItems part ++ ·)) := by
  induction part generalizing inWord with
  | nil =>
    refine ⟨inWord, ?_⟩
    have hid : List.modifyHead (plainItems [] ++ ·) = id := by
      funext commands
      cases commands <;> rfl
    rw [hid, Option.map_id]
    rfl
  | cons c cs ih =>
    rw [Plain] at h
    have hstep : ∃ inWord₁, Plain inWord₁ cs ∧ step sh (.unquoted inWord) c (cs ++ rest) =
        some ([.piece (plainPiece c)], 0, .unquoted inWord₁) := by
      rw [step, plainPiece]
      split_ifs at h ⊢ with hblank
      · exact ⟨false, h, by rw [stepUnquoted, if_pos hblank]⟩
      · exact ⟨true, h.2.2, stepUnquoted_ordinary h.1 h.2.1⟩
    have hand : c ≠ '&' := by
      rintro rfl
      split_ifs at h with hblank
      · revert hblank
        decide
      · exact h.1.not_operator (by decide)
    obtain ⟨inWord₁, hplain, hstep⟩ := hstep
    obtain ⟨inWord', hrest⟩ := ih hplain
    refine ⟨inWord', ?_⟩
    rw [List.cons_append, scanAnd, if_neg (by simp [endsCommand, hand]), hstep]
    simp only [hrest, Option.map_map]
    refine congrArg (Option.map · _) (funext fun commands => ?_)
    cases commands <;> rfl

/-- What a list of plain texts is read as. -/
theorem scanAnd_andJoin {part : List Char} {parts : List (List Char)}
    (h : ∀ p ∈ part :: parts, Plain false p) :
    scanAnd sh 0 (.unquoted false) (andJoin (part :: parts)) =
      some ((part :: parts).map plainItems) := by
  induction parts generalizing part with
  | nil =>
    obtain ⟨inWord', hscan⟩ := @scanAnd_append sh _ _ (h part List.mem_cons_self) []
    rw [andJoin, List.intercalate_singleton, ← List.append_nil part, hscan]
    simp [scanAnd, Mode.mayEnd]
  | cons p ps ih =>
    obtain ⟨hpart, hrest⟩ := List.forall_mem_cons.mp h
    obtain ⟨inWord', hscan⟩ := @scanAnd_append sh _ _ hpart ('&' :: '&' :: andJoin (p :: ps))
    have hand : scanAnd sh 0 (.unquoted inWord') ('&' :: '&' :: andJoin (p :: ps)) =
        (scanAnd sh 0 (.unquoted false) (andJoin (p :: ps))).map ([] :: ·) := rfl
    rw [andJoin_cons (List.cons_ne_nil _ _), hscan, hand, ih hrest]
    simp

theorem not_mem_of_plain {inWord : Bool} {part : List Char} (h : Plain inWord part) :
    '&' ∉ part := by
  intro hmem
  rcases blank_or_ordinary h _ hmem with hblank | hordinary
  · revert hblank
    decide
  · exact hordinary.not_operator (by decide)

/-- The ampersands show where the commands end. -/
theorem andJoin_injective {parts parts' : List (List Char)} (hne : parts ≠ [])
    (hne' : parts' ≠ []) (h : ∀ p ∈ parts, '&' ∉ p) (h' : ∀ p ∈ parts', '&' ∉ p)
    (heq : andJoin parts = andJoin parts') : parts = parts' := by
  induction parts generalizing parts' with
  | nil => exact absurd rfl hne
  | cons p ps ih =>
    obtain ⟨p', ps', rfl⟩ := List.exists_cons_of_ne_nil hne'
    obtain ⟨hp, hps⟩ := List.forall_mem_cons.mp h
    obtain ⟨hp', hps'⟩ := List.forall_mem_cons.mp h'
    by_cases hnil : ps = []
    · by_cases hnil' : ps' = []
      · subst hnil hnil'
        rw [andJoin, andJoin, List.intercalate_singleton, List.intercalate_singleton] at heq
        rw [heq]
      · subst hnil
        rw [andJoin_cons hnil', andJoin, List.intercalate_singleton] at heq
        exact absurd (heq ▸ List.mem_append_right _ List.mem_cons_self) hp
    · by_cases hnil' : ps' = []
      · subst hnil'
        have hsingle : andJoin [p'] = p' := List.intercalate_singleton
        rw [andJoin_cons hnil, hsingle] at heq
        exact absurd (heq ▸ List.mem_append_right _ List.mem_cons_self) hp'
      · rw [andJoin_cons hnil, andJoin_cons hnil'] at heq
        have hsplit := congrArg (List.splitOn '&') heq
        rw [List.splitOn_append_cons_self_of_not_mem hp,
          List.splitOn_append_cons_self_of_not_mem hp'] at hsplit
        obtain rfl := (List.cons.inj hsplit).1
        have hrest := (List.cons.inj (List.append_cancel_left heq)).2
        rw [ih hnil hnil' hps hps' (List.cons.inj hrest).2]

/-! ### Joined commands -/

/-- Commands with `&&` between them. -/
def andText (commands : List (List (List Char))) : List Char :=
  [' ', '&', '&', ' '].intercalate (commands.map [' '].intercalate)

/-- The same text, where each space belongs to the command next to it. -/
def padded (lead : List Char) : List (List (List Char)) → List (List Char)
  | [] => []
  | [units] => [lead ++ [' '].intercalate units]
  | units :: rest => (lead ++ [' '].intercalate units ++ [' ']) :: padded [' '] rest

theorem andJoin_padded (lead : List Char) {commands : List (List (List Char))}
    (h : commands ≠ []) : andJoin (padded lead commands) = lead ++ andText commands := by
  induction commands generalizing lead with
  | nil => exact absurd rfl h
  | cons units rest ih =>
    cases rest with
    | nil => simp [padded, andJoin, andText]
    | cons units' rest =>
      have hne : padded [' '] (units' :: rest) ≠ [] := by
        cases rest <;> exact List.cons_ne_nil _ _
      rw [padded, andJoin_cons hne, ih _ (List.cons_ne_nil _ _)]
      · simp [andText, List.intercalate_cons_cons]
      · exact List.cons_ne_nil _ _

/-- The text of a command, with a space before it or behind it perhaps. -/
def IsPadded (units : List (List Char)) (part : List Char) : Prop :=
  ∃ lead trail, (lead = [] ∨ lead = [' ']) ∧ (trail = [] ∨ trail = [' ']) ∧
    part = lead ++ [' '].intercalate units ++ trail

theorem isPadded_padded {lead : List Char} (hlead : lead = [] ∨ lead = [' '])
    (commands : List (List (List Char))) :
    List.Forall₂ IsPadded commands (padded lead commands) := by
  induction commands generalizing lead with
  | nil => exact .nil
  | cons units rest ih =>
    cases rest with
    | nil => exact .cons ⟨lead, [], hlead, .inl rfl, (List.append_nil _).symm⟩ .nil
    | cons units' rest =>
      exact .cons ⟨lead, [' '], hlead, .inr rfl, rfl⟩ (ih (.inr rfl))

theorem plain_append_space {inWord : Bool} {text : List Char} :
    Plain inWord (text ++ [' ']) ↔ Plain inWord text := by
  induction text generalizing inWord with
  | nil => simp [Plain, IsBlank]
  | cons c cs ih => rw [List.cons_append, Plain, Plain, ih, ih]

section Padded

variable {units : List (List Char)} {part : List Char}
  (h : ∀ u ∈ units, u ≠ [] ∧ ∀ c ∈ u, ¬ IsBlank c) (hpart : IsPadded units part)

include h hpart

theorem plain_padded_iff : Plain false part ↔ ∀ u ∈ units, Bare u := by
  obtain ⟨lead, trail, hlead, htrail, rfl⟩ := hpart
  have hbefore : ∀ text, Plain false (lead ++ text) ↔ Plain false text := by
    intro text
    rcases hlead with rfl | rfl
    · exact Iff.rfl
    · rw [List.singleton_append, Plain, if_pos (.inl rfl)]
  have hbehind : ∀ text, Plain false (text ++ trail) ↔ Plain false text := by
    intro text
    rcases htrail with rfl | rfl
    · rw [List.append_nil]
    · exact plain_append_space
  rw [hbehind, hbefore, plain_join_iff h]

theorem fields_padded :
    fields (part.map plainPiece) = units.map fun u => u.map (Piece.char · false) := by
  obtain ⟨lead, trail, hlead, htrail, rfl⟩ := hpart
  have hbefore : ∀ pieces, fields (lead.map plainPiece ++ pieces) = fields pieces := by
    intro pieces
    rcases hlead with rfl | rfl
    · rfl
    · have hsplit : (Piece.sep :: pieces).splitOn .sep = [] :: pieces.splitOn .sep :=
        List.splitOn_append_cons_self_of_not_mem (List.not_mem_nil (a := Piece.sep)) pieces
      show fields (Piece.sep :: pieces) = _
      rw [fields, hsplit]
      rfl
  have hbehind : ∀ pieces, fields (pieces ++ trail.map plainPiece) = fields pieces := by
    intro pieces
    rcases htrail with rfl | rfl
    · rw [List.map_nil, List.append_nil]
    · show fields (pieces ++ [Piece.sep]) = _
      rw [fields, List.splitOn_append_cons_self, List.filter_append]
      simp [fields]
  rw [List.map_append, List.map_append, hbehind, hbefore, fields_join h]

theorem isBlankCommand_padded (hne : units ≠ []) : isBlankCommand (plainItems part) = false := by
  rw [Bool.eq_false_iff]
  intro hblank
  obtain ⟨u, hu⟩ := List.exists_mem_of_ne_nil _ hne
  obtain ⟨c, hc⟩ := List.exists_mem_of_ne_nil _ (h u hu).1
  have hfield : u.map (Piece.char · false) ∈ fields (part.map plainPiece) := by
    rw [fields_padded h hpart]
    exact List.mem_map_of_mem hu
  obtain ⟨hmem, hsep⟩ := (mem_of_mem_fields hfield).2 _ (List.mem_map_of_mem hc)
  obtain ⟨d, hd, heq⟩ := List.mem_map.mp hmem
  have hall := List.all_eq_true.mp hblank (.piece (plainPiece d)) (List.mem_map_of_mem hd)
  rw [decide_eq_true_eq, heq] at hall
  exact hsep (Item.piece.inj hall)

end Padded

/-! ### Commands that are found again -/

theorem flatMap_expand_plain (env : Env) (part : List Char) :
    (plainItems part).flatMap env.expand = part.map plainPiece := by
  rw [plainItems, List.flatMap_map]
  exact List.map_eq_flatMap.symm

theorem map_eq_map_of_forall₂ {α β γ : Type} {R : α → β → Prop} {f : α → γ} {g : β → γ}
    {as : List α} {bs : List β} (h : List.Forall₂ R as bs)
    (hfg : ∀ {a b}, a ∈ as → R a b → g b = f a) : bs.map g = as.map f := by
  induction h with
  | nil => rfl
  | cons hab _ ih =>
    rw [List.map_cons, List.map_cons, hfg List.mem_cons_self hab,
      ih fun ha hr => hfg (List.mem_cons_of_mem _ ha) hr]

theorem exists_of_forall₂ {α β : Type} {R : α → β → Prop} {as : List α} {bs : List β}
    (h : List.Forall₂ R as bs) {b : β} (hb : b ∈ bs) : ∃ a ∈ as, R a b := by
  induction h with
  | nil => cases hb
  | cons hab _ ih =>
    rcases List.mem_cons.mp hb with rfl | hb
    · exact ⟨_, List.mem_cons_self, hab⟩
    · obtain ⟨a, ha, hr⟩ := ih hb
      exact ⟨a, List.mem_cons_of_mem _ ha, hr⟩

/-- What joined commands are read as whose words are plain. -/
theorem andWords_of_plain {commands : List (List (List Char))} {parts : List (List Char)}
    (hunits : ∀ units ∈ commands, units ≠ [] ∧ ∀ u ∈ units, u ≠ [] ∧ ∀ c ∈ u, ¬ IsBlank c)
    (hparts : List.Forall₂ IsPadded commands parts) (hne : commands ≠ [])
    (hplain : ∀ part ∈ parts, Plain false part) (hnul : Char.ofNat 0 ∉ andJoin parts) (env : Env) :
    andWords sh env (andJoin parts) =
      some (commands.map fun units => units.flatMap fun u =>
        paths sh env (u.map (Piece.char · false))) := by
  obtain ⟨part, parts', rfl⟩ : ∃ part parts', parts = part :: parts' := by
    cases hparts with
    | nil => exact absurd rfl hne
    | cons _ _ => exact ⟨_, _, rfl⟩
  have hblank : ((part :: parts').map plainItems).any isBlankCommand = false := by
    rw [List.any_eq_false]
    intro items hitems
    obtain ⟨p, hp, rfl⟩ := List.mem_map.mp hitems
    obtain ⟨units, hu, hpadded⟩ := exists_of_forall₂ hparts hp
    rw [isBlankCommand_padded (hunits units hu).2 hpadded (hunits units hu).1]
    exact Bool.false_ne_true
  rw [andWords, if_neg hnul, scanAnd_andJoin hplain, Option.bind_some,
    if_neg (by rw [hblank]; simp), List.map_map]
  refine congrArg some (map_eq_map_of_forall₂ hparts fun {units p} hu hpadded => ?_)
  rw [Function.comp_apply, flatMap_expand_plain, fields_padded (hunits units hu).2 hpadded,
    List.flatMap_map]

theorem mem_andText {commands : List (List (List Char))} {c : Char} (h : c ∈ andText commands) :
    c = ' ' ∨ c = '&' ∨ ∃ units ∈ commands, ∃ u ∈ units, c ∈ u := by
  induction commands with
  | nil => cases h
  | cons units rest ih =>
    cases rest with
    | nil =>
      rw [andText, List.map_singleton, List.intercalate_singleton] at h
      rcases mem_join h with h | ⟨u, hu, hc⟩
      · exact .inl h
      · exact .inr (.inr ⟨units, List.mem_cons_self, u, hu, hc⟩)
    | cons units' rest =>
      rw [andText, List.map_cons, List.map_cons, List.intercalate_cons_cons, List.mem_append,
        List.mem_append] at h
      rcases h with (h | h) | h
      · rcases mem_join h with h | ⟨u, hu, hc⟩
        · exact .inl h
        · exact .inr (.inr ⟨units, List.mem_cons_self, u, hu, hc⟩)
      · simp only [List.mem_cons, List.not_mem_nil, or_false] at h
        rcases h with h | h | h | h
        · exact .inl h
        · exact .inr (.inl h)
        · exact .inr (.inl h)
        · exact .inl h
      · rcases ih h with h | h | ⟨w, hw, hc⟩
        · exact .inl h
        · exact .inr (.inl h)
        · exact .inr (.inr ⟨w, List.mem_cons_of_mem _ hw, hc⟩)

theorem andWords_of_inert {commands : List (List (List Char))} (hne : commands ≠ [])
    (hnonempty : ∀ units ∈ commands, units ≠ [])
    (h : ∀ units ∈ commands, ∀ u ∈ units, Inert sh u) (env : Env) :
    andWords sh env (andText commands) = some commands := by
  have hunits : ∀ units ∈ commands, units ≠ [] ∧ ∀ u ∈ units, u ≠ [] ∧ ∀ c ∈ u, ¬ IsBlank c :=
    fun units hu => ⟨hnonempty units hu, fun u hu' => ⟨(h units hu u hu').nonempty,
      fun c hc => ((h units hu u hu').ordinary c hc).not_blank⟩⟩
  have hpadded := isPadded_padded (.inl rfl) commands
  have hjoin : andJoin (padded [] commands) = andText commands := andJoin_padded [] hne
  have hplain : ∀ part ∈ padded [] commands, Plain false part := by
    intro part hpart
    obtain ⟨units, hu, hpart⟩ := exists_of_forall₂ hpadded hpart
    exact (plain_padded_iff (hunits units hu).2 hpart).mpr fun u hu' => (h units hu u hu').toBare
  have hnul : Char.ofNat 0 ∉ andJoin (padded [] commands) := by
    rw [hjoin]
    intro hmem
    rcases mem_andText hmem with h' | h' | ⟨units, hu, u, hu', hc⟩
    · revert h'
      decide
    · revert h'
      decide
    · exact (h units hu u hu').no_nul hc
  rw [← hjoin, andWords_of_plain hunits hpadded hne hplain hnul]
  refine congrArg some ((List.map_congr_left fun units hu => ?_).trans (List.map_id _))
  have hpaths : ∀ u ∈ units, paths sh env (u.map (Piece.char · false)) = [u] := by
    intro u hu'
    rw [paths_chars, if_neg fun hpattern => ?_]
    rw [(h units hu u hu').no_pattern] at hpattern
    cases hpattern.1
  rw [List.flatMap_congr hpaths, ← List.map_eq_flatMap, List.map_id']
  rfl

/-! ### What is lost shows -/

theorem word_append (field field' : List Piece) :
    word (field ++ field') = word field ++ word field' := by
  rw [word, List.filterMap_append, List.map_append]
  rfl

/-- Where expansions stand for nothing, the words have the characters that are found. -/
theorem flatten_words (items : List Item) :
    ((fields (items.flatMap (longValues 0).expand)).map word).flatten = chars items := by
  have hflatten : ∀ ls : List (List Piece), (ls.map word).flatten = word ls.flatten := by
    intro ls
    induction ls with
    | nil => rfl
    | cons l ls ih => rw [List.map_cons, List.flatten_cons, List.flatten_cons, ih, word_append]
  have hsep : ∀ pieces : List Piece, word (pieces.filter (· ≠ .sep)) = word pieces := by
    intro pieces
    rw [word, word, List.filterMap_filter]
    refine congrArg (fun f => (List.filterMap f pieces).map Prod.fst) (funext fun x => ?_)
    cases x <;> rfl
  rw [hflatten, flatten_fields, hsep]
  induction items with
  | nil => rfl
  | cons item items ih =>
    rw [List.flatMap_cons, word_append, ih, ← List.singleton_append, chars_append]
    congr 1
    cases item with
    | piece p => cases p <;> rfl
    | expansion text inDouble => cases inDouble <;> rfl
    | tilde login => rfl

theorem flatten_commands (commands : List (List Item)) :
    (commands.map fun items =>
      (fields (items.flatMap (longValues 0).expand)).map word).flatten.flatten =
      chars commands.flatten := by
  induction commands with
  | nil => rfl
  | cons items commands ih =>
    rw [List.map_cons, List.flatten_cons, List.flatten_append, flatten_words, ih,
      List.flatten_cons, chars_append]

theorem count_intercalate {α : Type} [BEq α] {sep : List α} {a : α} (h : sep.count a = 0)
    (ls : List (List α)) : (sep.intercalate ls).count a = ls.flatten.count a := by
  induction ls with
  | nil => rfl
  | cons l ls ih =>
    cases ls with
    | nil => simp
    | cons l' ls =>
      have hflatten : (l :: l' :: ls).flatten = l ++ (l' :: ls).flatten := rfl
      rw [List.intercalate_cons_cons, List.count_append, List.count_append, h, ih, hflatten,
        List.count_append, Nat.add_zero]

/-- The text has the characters of the words, spaces and ampersands. -/
theorem count_andText {q : Char} (hspace : q ≠ ' ') (hand : q ≠ '&')
    (commands : List (List (List Char))) :
    (andText commands).count q = commands.flatten.flatten.count q := by
  have hsep : [' ', '&', '&', ' '].count q = 0 := by
    simp [hspace.symm, hand.symm]
  rw [andText, count_intercalate hsep]
  induction commands with
  | nil => rfl
  | cons units rest ih =>
    rw [List.map_cons, List.flatten_cons, List.count_append, ih, List.flatten_cons,
      List.flatten_append, List.count_append, count_intercalate (by simp [hspace.symm])]

theorem mem_of_mem_word {text : List Char} {field : List Piece}
    (h : field ∈ fields (text.map plainPiece)) {c : Char} (hc : c ∈ word field) : c ∈ text := by
  obtain ⟨⟨d, quoted⟩, hd, rfl⟩ := List.mem_map.mp hc
  obtain ⟨x, hx, hxd⟩ := List.mem_filterMap.mp hd
  obtain ⟨c, hmem, rfl⟩ := List.mem_map.mp ((mem_of_mem_fields h).2 x hx).1
  rw [plainPiece] at hxd
  split_ifs at hxd
  · cases hxd
  · cases hxd
    exact hmem

/-- What is found again, whatever the values are, is plain. -/
theorem plain_of_andWords {commands : List (List (List Char))}
    (h : ∀ env, andWords sh env (andText commands) = some commands) :
    ∃ parts, andText commands = andJoin parts ∧ parts ≠ [] ∧ (∀ part ∈ parts, Plain false part) ∧
      commands = parts.map fun part => (fields (part.map plainPiece)).map word := by
  have hwords := h (longValues 0)
  rw [andWords] at hwords
  split_ifs at hwords with hnul
  obtain ⟨items, hscan, hitems⟩ := Option.bind_eq_some_iff.mp hwords
  split_ifs at hitems
  have hcommands : items.map (fun items =>
      (fields (items.flatMap (longValues 0).expand)).map word) = commands := by
    rw [paths_of_glob_nil fun _ => rfl] at hitems
    rw [← Option.some.inj hitems]
    exact List.map_congr_left fun _ _ => List.map_eq_flatMap
  have hchars : chars items.flatten = commands.flatten.flatten := by
    rw [← hcommands, flatten_commands]
  obtain ⟨part, parts, htext, hpart, hparts, rfl⟩ := parts_of_count hscan fun q hq hq' =>
    Nat.le_of_eq (by rw [hchars, count_andText hq hq'])
  refine ⟨part :: parts, htext, List.cons_ne_nil _ _, List.forall_mem_cons.mpr ⟨hpart, hparts⟩, ?_⟩
  rw [← hcommands, List.map_map]
  refine List.map_congr_left fun p _ => ?_
  rw [Function.comp_apply, flatMap_expand_plain]

/-- The words of joined commands are found again in every environment if and only if all of
them are inert. -/
theorem andWords_iff {commands : List (List (List Char))} (hne : commands ≠ [])
    (hnonempty : ∀ units ∈ commands, units ≠ []) :
    (∀ env, andWords sh env (andText commands) = some commands) ↔
      ∀ units ∈ commands, ∀ u ∈ units, Inert sh u := by
  refine ⟨fun h => ?_, fun h => andWords_of_inert hne hnonempty h⟩
  obtain ⟨parts, htext, hparts, hplain, hcommands⟩ := plain_of_andWords h
  have hwords : ∀ units ∈ commands, ∀ u ∈ units, (u ≠ [] ∧ ∀ c ∈ u, ¬ IsBlank c) ∧ '&' ∉ u := by
    intro units hu u hu'
    rw [hcommands] at hu
    obtain ⟨part, hpart, rfl⟩ := List.mem_map.mp hu
    obtain ⟨field, hfield, rfl⟩ := List.mem_map.mp hu'
    exact ⟨word_of_plain hfield, fun hand =>
      not_mem_of_plain (hplain part hpart) (mem_of_mem_word hfield hand)⟩
  have hunits : ∀ units ∈ commands, units ≠ [] ∧ ∀ u ∈ units, u ≠ [] ∧ ∀ c ∈ u, ¬ IsBlank c :=
    fun units hu => ⟨hnonempty units hu, fun u hu' => (hwords units hu u hu').1⟩
  have hpadded := isPadded_padded (.inl rfl) commands
  -- the ampersands are where they were put
  have hsame : padded [] commands = parts := by
    refine andJoin_injective ?_ hparts ?_ (fun p hp => not_mem_of_plain (hplain p hp)) ?_
    · intro hnil
      rw [hnil] at hpadded
      cases hpadded
      exact hne rfl
    · intro p hp hand
      obtain ⟨units, hu, lead, trail, hlead, htrail, rfl⟩ := exists_of_forall₂ hpadded hp
      rw [List.mem_append, List.mem_append] at hand
      rcases hand with (hand | hand) | hand
      · rcases hlead with rfl | rfl <;> simp at hand
      · rcases mem_join hand with hspace | ⟨u, hu', hc⟩
        · cases hspace
        · exact (hwords units hu u hu').2 hc
      · rcases htrail with rfl | rfl <;> simp at hand
    · rw [andJoin_padded [] hne, List.nil_append, htext]
  subst hsame
  have hnul : Char.ofNat 0 ∉ andText commands := by
    intro hmem
    have hnone := h otherPaths
    rw [andWords, if_pos hmem] at hnone
    cases hnone
  have hother := h otherPaths
  rw [htext, andWords_of_plain hunits hpadded hne hplain (htext ▸ hnul)] at hother
  have hfound := List.map_inj_left.mp ((Option.some.inj hother).trans (List.map_id commands).symm)
  intro units hu u hu'
  obtain ⟨part, hpart, hunitsPart⟩ := exists_of_forall₂ hpadded.flip hu
  have hbare := (plain_padded_iff (hunits units hu).2 hunitsPart).mp (hplain part hpart) u hu'
  have hsub : u ⊆ andText commands := by
    obtain ⟨lead, trail, -, -, rfl⟩ := hunitsPart
    rw [htext]
    exact fun c hc => subset_andJoin hpart
      (List.mem_append_left _ (List.mem_append_right _ (subset_join hu' hc)))
  refine ⟨hbare, ((hunits units hu).2 u hu').1, fun hmem => hnul (hsub hmem), ?_⟩
  rw [Bool.eq_false_iff]
  intro hpattern
  have hwords' := hfound units hu
  rw [List.flatMap_congr fun u _ => paths_otherPaths u, ← List.map_eq_flatMap] at hwords'
  have hsame := List.map_inj_left.mp (hwords'.trans (List.map_id units).symm) u hu'
  rw [if_pos hpattern] at hsame
  simp at hsame

end Lobbyboy.Foundation.PosixShell
