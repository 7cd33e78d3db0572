import Lobbyboy.Utils.Lines

/-! One prompt of `choose_option` and the line that answers it: what is sent, what the
line stands for, and what is left to read. -/

namespace Lobbyboy.Utils

open Foundation Prog

/-! ### What is sent -/

/-- `f"{index:>3} - {option}"`. -/
def optionLine (index : ℕ) (option : String) : String :=
  let number := toString index
  let padding := String.ofList (List.replicate (3 - number.length) ' ')
  s!"{padding}{number} - {option}"

def optionLines : ℕ → List String → List (List UInt8)
  | _, [] => []
  | index, option :: options => (utf8 (optionLine index option) ++ crlf) ::
      optionLines (index + 1) options

/-- An option is shown beside its place in the list. -/
theorem optionLines_getElem? (index i : ℕ) (options : List String) :
    (optionLines index options)[i]? =
      options[i]?.map fun option => utf8 (optionLine (index + i) option) ++ crlf := by
  induction options generalizing index i with
  | nil => rfl
  | cons option options ih =>
    cases i with
    | zero => rfl
    | succ i =>
      rw [optionLines, List.getElem?_cons_succ, List.getElem?_cons_succ, ih,
        Nat.succ_add_eq_add_succ]

section Transcript

variable (options : List String) (optionPrompt askPrompt : Option String)

/-- The options with their numbers, and the question. -/
def prompt : List (List UInt8) :=
  (utf8 (optionPrompt.getD "Available options:") ++ crlf) :: optionLines 0 options ++
    [utf8 (askPrompt.getD s!"Please enter the number of choice[0-{(options.length : ℤ) - 1}]: ")]

/-- The answer to what the user has entered. -/
def verdict : Option ℕ → List UInt8
  | some num => utf8 ("You selected: " ++ options.getD num "") ++ crlf
  | none => utf8 s!"unknown choice, please choose again [0-{(options.length : ℤ) - 1}]" ++ crlf

/-- All that is sent for one line. -/
def attempt (line : List UInt8) (chosen : Option ℕ) : List (List UInt8) :=
  prompt options optionPrompt askPrompt ++ line.map echo ++ [crlf, verdict options chosen]

end Transcript

/-! ### What a line stands for -/

/-- The number of an option that the user means: an empty line is the default, when there
is one, and any other line the number that `int` reads. -/
inductive StandsFor (options : List String) (default : Option ℕ) (s : String) (k : ℕ) : Prop
  | default (empty : s = "") (given : default = some k) (range : k < options.length)
  | number (read : pyInt s = some (k : ℤ)) (range : k < options.length)

theorem StandsFor.lt {options : List String} {default : Option ℕ} {s : String} {k : ℕ}
    (h : StandsFor options default s k) : k < options.length := by
  cases h <;> assumption

/-- A number that needs no default. -/
theorem StandsFor.of_none {options : List String} {s : String} {k : ℕ}
    (h : StandsFor options none s k) (default : Option ℕ) : StandsFor options default s k := by
  cases h with
  | default _ given => cases given
  | number read range => exact .number read range

theorem pyInt_empty : pyInt "" = none := by decide

/-- `choose_option` takes a line for what it stands for. -/
theorem selected?_eq_some_iff {options : List String} {default : Option ℕ} {s : String} {k : ℕ} :
    selected? options default s = some k ↔ StandsFor options default s k := by
  have hrange : ∀ {numSelected : ℤ}, (if 0 ≤ numSelected ∧ numSelected < options.length then
      some numSelected.toNat else none) = some k ↔ numSelected = k ∧ k < options.length := by
    intro numSelected
    split_ifs with h
    · rw [Option.some.injEq]
      omega
    · simp only [false_iff]
      omega
  by_cases hempty : s = "" ∧ default.isSome
  · obtain ⟨rfl, d, rfl⟩ : s = "" ∧ ∃ d, default = some d :=
      ⟨hempty.1, Option.isSome_iff_exists.mp hempty.2⟩
    have hd : selected? options (some d) "" =
        if 0 ≤ (d : ℤ) ∧ (d : ℤ) < options.length then some (d : ℤ).toNat else none := rfl
    rw [hd, hrange]
    constructor
    · rintro ⟨hdk, hk⟩
      exact .default rfl (congrArg some (Int.natCast_inj.mp hdk)) hk
    · rintro (⟨-, given, hk⟩ | ⟨read, -⟩)
      · exact ⟨congrArg Nat.cast (Option.some.inj given), hk⟩
      · rw [pyInt_empty] at read
        cases read
  · simp only [selected?, if_neg hempty, Option.bind_eq_bind, Option.bind_eq_some_iff, hrange]
    constructor
    · rintro ⟨n, read, rfl, hk⟩
      exact .number read hk
    · rintro (⟨rfl, given, -⟩ | ⟨read, hk⟩)
      · exact absurd ⟨rfl, by rw [given]; rfl⟩ hempty
      · exact ⟨_, read, rfl, hk⟩

theorem selected?_of_ne_empty {s : String} (h : s ≠ "") (options : List String)
    (default default' : Option ℕ) : selected? options default s = selected? options default' s := by
  simp [selected?, h]

/-- Without a default there is no number in an empty line. -/
theorem selected?_empty (options : List String) : selected? options none "" = none := by
  simp [selected?, pyInt_empty]

/-! ### What it does -/

variable {T : Type} {env : Env T} {E : Stop → World T → Prop}

theorem wp_sendOptions {Q : Unit → World T → Prop} (hE : RaisedBy env E) (options : List String)
    {index : ℕ} {w : World T} (h : ∀ w', w'.input = w.input →
      w'.output = w.output ++ optionLines index options → Q () w') :
    wp (sendOptions env index options) Q E w := by
  induction options generalizing index w with
  | nil => exact (wp_pure ()).mpr (h w rfl (List.append_nil _).symm)
  | cons option options ih =>
    simp only [sendOptions, wp_bind, wp_sendToChannel]
    refine ⟨fun _ => ih fun w' hinput houtput => h w' hinput ?_, fun e he => hE _ _ _ he⟩
    rw [houtput]
    simp [optionLines, optionLine]

section Choose

variable {options : List String} {optionPrompt askPrompt : Option String} {default : Option ℕ}
  {line rest : List UInt8} {w : World T}

/-- The options are sent and a line is read. -/
theorem wp_chooseOnce_of_read {Q : Option ℕ → World T → Prop} (hE : RaisedBy env E)
    (h : ∀ w₁, w₁.input = w.input →
      w₁.output = w.output ++ prompt options optionPrompt askPrompt →
      wp (readUserInputLine env) (fun s w₂ =>
        (∀ w', w'.input = w₂.input →
          w'.output = w₂.output ++ [verdict options (selected? options default s)] →
          Q (selected? options default s) w') ∧
        -- the confirmation could not be sent
        ((∃ n, env.raises n ≠ none) → ∀ w', w'.input = w₂.input →
          w'.output = w₂.output ++ [verdict options none] → Q none w')) E w₁) :
    wp (chooseOnce env options optionPrompt askPrompt default) Q E w := by
  simp only [chooseOnce, wp_bind, wp_sendToChannel]
  refine ⟨fun _ => ?_, fun e he => hE _ _ _ he⟩
  refine wp_sendOptions hE _ fun w₁ hinput₁ houtput₁ => ⟨fun _ => ?_, fun e he => hE _ _ _ he⟩
  refine wp_mono (h _ hinput₁ (by simp [houtput₁, prompt])) ?_ fun _ _ h => h
  rintro s w₂ ⟨hanswer, hlost⟩
  cases hsel : selected? options default s with
  | none =>
    simp only [unknownChoice, wp_bind, wp_sendToChannel, wp_pure]
    refine ⟨fun _ => ?_, fun e he => hE _ _ _ he⟩
    rw [hsel] at hanswer
    exact hanswer _ rfl rfl
  | some num =>
    simp only [unknownChoice, wp_handle, wp_bind, wp_sendToChannel, wp_pure]
    refine ⟨fun _ => ?_, fun e he => ⟨fun _ => ?_, fun e he => hE _ _ _ he⟩⟩
    · rw [hsel] at hanswer
      exact hanswer _ rfl rfl
    · exact hlost ⟨_, by rw [he]; simp⟩ _ rfl rfl

/-- A line is answered with what it stands for, where nothing is lost. -/
theorem wp_chooseOnce {Q : Option ℕ → World T → Prop} (hraises : ∀ n, env.raises n = none)
    (hline : ∀ b ∈ line, ¬ EndsLine b) (hw : w.input = line ++ 13 :: rest)
    (hQ : ∀ s, decoded? line = some s → ∀ w', w'.input = rest →
      w'.output = w.output ++
        attempt options optionPrompt askPrompt line (selected? options default s) →
      Q (selected? options default s) w')
    (hnone : decoded? line = none →
      ∀ w', E (.raised ⟨.valueError, "'utf-8' codec can't decode"⟩) w') :
    wp (chooseOnce env options optionPrompt askPrompt default) Q E w := by
  have hE : RaisedBy env E := by
    intro n e w he
    rw [hraises n] at he
    cases he
  refine wp_chooseOnce_of_read hE fun w₁ hinput houtput => ?_
  refine readUserInputLine_return hE hline (hinput.trans hw) (fun s hs => ⟨?_, ?_⟩) fun hs =>
    hnone hs _
  · intro w' hinput' houtput'
    refine hQ s hs w' hinput' ?_
    rw [houtput']
    simp [afterReturn, houtput, attempt]
  · rintro ⟨n, hn⟩
    exact absurd (hraises n) hn

/-- The line that was read last stands for `k`, and was entered below this menu. -/
def Answered (options : List String) (optionPrompt askPrompt : Option String)
    (default : Option ℕ) (k : ℕ) (w w' : World T) : Prop :=
  ∃ before line s sent, w.input = before ++ (line ++ 13 :: w'.input) ∧
    decoded? line = some s ∧ StandsFor options default s k ∧
    w'.output = w.output ++ (sent ++ attempt options optionPrompt askPrompt line (some k))

theorem Answered.lt {k : ℕ} {w' : World T}
    (h : Answered options optionPrompt askPrompt default k w w') : k < options.length := by
  obtain ⟨_, _, _, _, -, -, hstands, -⟩ := h
  exact hstands.lt

/-- One prompt is answered, or has been without effect. -/
theorem chooseOnce_answered :
    wp (chooseOnce env options optionPrompt askPrompt default) (fun r w' =>
      match r with
      | some k => Answered options optionPrompt askPrompt default k w w'
      | none => ∃ before sent, w.input = before ++ w'.input ∧ w'.output = w.output ++ sent)
      (fun _ _ => True) w := by
  refine wp_chooseOnce_of_read (fun _ _ _ _ => trivial) fun w₁ hinput houtput => ?_
  refine wp_mono readUserInputLine_spec ?_ fun _ _ h => h
  rintro s _ ⟨line, rest, hw₁, hline, hs, rfl⟩
  have hbefore : w.input = (line ++ [13]) ++ rest := by
    rw [← hinput, hw₁, List.append_assoc, List.singleton_append]
  constructor
  · intro w' hinput' houtput'
    cases hsel : selected? options default s with
    | none => exact ⟨line ++ [13], _, hinput' ▸ hbefore, by
        rw [houtput', afterReturn, houtput, List.append_assoc, List.append_assoc]⟩
    | some k =>
      refine ⟨[], line, s, [], ?_, hs, selected?_eq_some_iff.mp hsel, ?_⟩
      · rw [hinput', List.nil_append]
        exact hinput.symm.trans hw₁
      · rw [houtput', hsel]
        simp [afterReturn, houtput, attempt]
  · intro _ w' hinput' houtput'
    exact ⟨line ++ [13], _, hinput' ▸ hbefore, by
      rw [houtput', afterReturn, houtput, List.append_assoc, List.append_assoc]⟩

/-- An answer without the default is one with it, also below earlier prompts. -/
theorem Answered.after {before : List UInt8} {sent : List (List UInt8)} {k : ℕ} {w₁ w' : World T}
    (h : Answered options optionPrompt askPrompt none k w₁ w')
    (hinput : w.input = before ++ w₁.input)
    (houtput : w₁.output = w.output ++ sent) (default : Option ℕ) :
    Answered options optionPrompt askPrompt default k w w' := by
  obtain ⟨before₁, line, s, sent₁, hinput₁, hs, hstands, houtput₁⟩ := h
  refine ⟨before ++ before₁, line, s, sent ++ sent₁, ?_, hs, hstands.of_none default, ?_⟩
  · rw [hinput, hinput₁, List.append_assoc]
  · rw [houtput₁, houtput]
    simp only [List.append_assoc]

theorem chooseWithin_answered (n : ℕ) :
    wp (chooseWithin env options optionPrompt askPrompt default n)
      (fun k w' => Answered options optionPrompt askPrompt default k w w') (fun _ _ => True) w := by
  induction n generalizing default w with
  | zero => exact (wp_throw _).mpr trivial
  | succ n ih =>
    rw [chooseWithin, wp_bind]
    refine wp_mono chooseOnce_answered ?_ fun _ _ h => h
    intro r w₁ h₁
    cases r with
    | some k => exact (wp_pure k).mpr h₁
    | none =>
      obtain ⟨before, sent, hinput, houtput⟩ := h₁
      exact wp_mono ih (fun k w' h => h.after hinput houtput default) fun _ _ h => h

/-- The number that `choose_option` returns is what the last line stands for. -/
theorem chooseOption_answered :
    wp (chooseOption env options optionPrompt askPrompt default)
      (fun k w' => Answered options optionPrompt askPrompt default k w w') (fun _ _ => True) w := by
  simp only [chooseOption, wp_bind, wp_get]
  exact chooseWithin_answered _

end Choose

end Lobbyboy.Utils
