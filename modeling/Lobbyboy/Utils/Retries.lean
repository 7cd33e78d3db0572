import Lobbyboy.Utils.Prompts

/-! The lines that `choose_option` rejects before it accepts one. A rejected line causes
one more prompt, but the retry does not hand the default on, and a line that is not UTF-8
is not rejected at all: its exception leaves the function. So the first acceptable line is
the one that counts exactly if every line before it is UTF-8 and it is not an empty line
behind a rejected one. -/

namespace Lobbyboy.Utils

open Foundation Prog

/-! ### Acceptable lines -/

/-- What is rejected with a default is rejected without one. -/
theorem selected?_none {options : List String} {default : Option ℕ} {s : String}
    (h : selected? options default s = none) : selected? options none s = none := by
  by_cases hs : s = ""
  · rw [hs, selected?_empty]
  · rw [selected?_of_ne_empty hs options none default, h]

/-- The line is UTF-8 and stands for that number. -/
def Acceptable (options : List String) (default : Option ℕ) (line : List UInt8) (k : ℕ) : Prop :=
  ∃ s, decoded? line = some s ∧ StandsFor options default s k

/-- The number of an acceptable line. -/
def accepted? (options : List String) (default : Option ℕ) (line : List UInt8) : Option ℕ :=
  (decoded? line).bind (selected? options default)

theorem accepted?_eq_some_iff {options : List String} {default : Option ℕ} {line : List UInt8}
    {k : ℕ} : accepted? options default line = some k ↔ Acceptable options default line k := by
  simp only [accepted?, Option.bind_eq_some_iff, selected?_eq_some_iff, Acceptable]

theorem accepted?_eq_none_iff {options : List String} {default : Option ℕ} {line : List UInt8} :
    accepted? options default line = none ↔ ∀ k, ¬ Acceptable options default line k := by
  simp only [Option.eq_none_iff_forall_ne_some, ne_eq, accepted?_eq_some_iff]

/-- A line that is not accepted, although it is UTF-8. -/
def Rejected (options : List String) (default : Option ℕ) (line : List UInt8) : Prop :=
  ∃ s, decoded? line = some s ∧ selected? options default s = none

theorem Rejected.none {options : List String} {default : Option ℕ} {line : List UInt8}
    (h : Rejected options default line) : Rejected options none line := by
  obtain ⟨s, hs, hsel⟩ := h
  exact ⟨s, hs, selected?_none hsel⟩

theorem rejected_of_not_acceptable {options : List String} {default : Option ℕ}
    {line : List UInt8} (h : ∀ k, ¬ Acceptable options default line k)
    (hutf8 : (decoded? line).isSome) : Rejected options default line := by
  obtain ⟨s, hs⟩ := Option.isSome_iff_exists.mp hutf8
  refine ⟨s, hs, ?_⟩
  rwa [← accepted?_eq_none_iff, accepted?, hs, Option.bind_some] at h

/-- What the client sends for these lines. -/
def typed (lines : List (List UInt8)) : List UInt8 := lines.flatMap (· ++ [13])

theorem typed_append (lines lines' : List (List UInt8)) :
    typed (lines ++ lines') = typed lines ++ typed lines' := List.flatMap_append

theorem typed_cons (line : List UInt8) (lines : List (List UInt8)) (rest : List UInt8) :
    typed (line :: lines) ++ rest = line ++ 13 :: (typed lines ++ rest) := by
  simp [typed]

/-! ### Passing over rejected lines -/

section Choose

variable {T : Type} {env : Env T} {Q : ℕ → World T → Prop} {E : Stop → World T → Prop}
  (options : List String) (optionPrompt askPrompt : Option String)

/-- The transcript of rejected lines. -/
def rejections (lines : List (List UInt8)) : List (List UInt8) :=
  lines.flatMap fun line => attempt options optionPrompt askPrompt line none

/-- The default of the prompt behind these lines. -/
def defaultAfter (lines : List (List UInt8)) (default : Option ℕ) : Option ℕ :=
  if lines = [] then default else none

@[simp] theorem defaultAfter_nil (default : Option ℕ) : defaultAfter [] default = default := rfl

@[simp] theorem defaultAfter_none (lines : List (List UInt8)) :
    defaultAfter lines none = none := by
  simp [defaultAfter]

variable (hraises : ∀ n, env.raises n = none)
include hraises

/-- Each rejected line costs one prompt, and the default is gone behind the first. -/
theorem wp_chooseWithin_rejected {lines : List (List UInt8)} {default : Option ℕ}
    {rest : List UInt8} {n : ℕ} {w : World T} (hopen : ∀ line ∈ lines, ∀ b ∈ line, ¬ EndsLine b)
    (hrejected : ∀ line ∈ lines, Rejected options default line)
    (hw : w.input = typed lines ++ rest) (hn : w.input.length < n)
    (h : ∀ n' w', w'.input = rest → w'.input.length < n' →
      w'.output = w.output ++ rejections options optionPrompt askPrompt lines →
      wp (chooseWithin env options optionPrompt askPrompt (defaultAfter lines default) n') Q E w') :
    wp (chooseWithin env options optionPrompt askPrompt default n) Q E w := by
  induction lines generalizing default n w with
  | nil => exact h n w hw hn (List.append_nil _).symm
  | cons line lines ih =>
    obtain ⟨hline, hopen⟩ := List.forall_mem_cons.mp hopen
    obtain ⟨⟨s, hs, hsel⟩, hrejected⟩ := List.forall_mem_cons.mp hrejected
    rw [typed_cons] at hw
    obtain ⟨n, rfl⟩ : ∃ m, n = m + 1 := ⟨n - 1, by omega⟩
    rw [chooseWithin, wp_bind]
    refine wp_chooseOnce hraises hline hw ?_ ?_
    · intro s' hs' w' hinput houtput
      cases hs.symm.trans hs'
      rw [hsel] at houtput ⊢
      have hlength : w'.input.length < n := by
        rw [hw, List.length_append, List.length_cons] at hn
        rw [hinput]
        omega
      refine ih hopen (fun l hl => (hrejected l hl).none) hinput hlength ?_
      intro n' w'' hinput' hn' houtput'
      rw [defaultAfter_none]
      refine h n' w'' hinput' hn' ?_
      rw [houtput', houtput, List.append_assoc]
      rfl
    · intro hnone
      rw [hs] at hnone
      cases hnone

/-- The line that is not UTF-8 is the last one that is read. -/
theorem wp_chooseWithin_undecodable {default : Option ℕ} {line rest : List UInt8} {n : ℕ}
    {w : World T} (hline : ∀ b ∈ line, ¬ EndsLine b) (hw : w.input = line ++ 13 :: rest)
    (hn : w.input.length < n) (hnone : decoded? line = none) :
    wp (chooseWithin env options optionPrompt askPrompt default n) (fun _ _ => False)
      (fun _ _ => True) w := by
  obtain ⟨n, rfl⟩ : ∃ m, n = m + 1 := ⟨n - 1, by omega⟩
  rw [chooseWithin, wp_bind]
  refine wp_chooseOnce hraises hline hw ?_ fun _ _ => trivial
  intro s hs
  rw [hnone] at hs
  cases hs

omit hraises in
/-- A number that is chosen has taken another line. -/
theorem wp_chooseWithin_input {default : Option ℕ} {n : ℕ} {w : World T} :
    wp (chooseWithin env options optionPrompt askPrompt default n)
      (fun _ w' => w'.input.length < w.input.length) (fun _ _ => True) w := by
  induction n generalizing default w with
  | zero => exact (wp_throw _).mpr trivial
  | succ n ih =>
    rw [chooseWithin, wp_bind]
    refine wp_mono (chooseOnce_input options optionPrompt askPrompt default) ?_ fun _ _ h => h
    intro r w₁ h₁
    cases r with
    | none => exact wp_mono ih (fun _ _ h => h.trans h₁) fun _ _ h => h
    | some num => exact (wp_pure num).mpr h₁

/-- Behind rejected lines, an acceptable one that does not need the default is the one that
counts. -/
theorem wp_chooseWithin_first {default : Option ℕ} {earlier : List (List UInt8)}
    {first rest : List UInt8} {s : String} {num n : ℕ} {w : World T}
    (hopen : ∀ line ∈ earlier, ∀ b ∈ line, ¬ EndsLine b) (hfirst : ∀ b ∈ first, ¬ EndsLine b)
    (hrejected : ∀ line ∈ earlier, Rejected options default line) (hs : decoded? first = some s)
    (hsel : selected? options (defaultAfter earlier default) s = some num)
    (hw : w.input = typed earlier ++ (first ++ 13 :: rest)) (hn : w.input.length < n) :
    wp (chooseWithin env options optionPrompt askPrompt default n)
      (fun r w' => r = num ∧ w'.input = rest ∧
        w'.output = w.output ++ (rejections options optionPrompt askPrompt earlier ++
          attempt options optionPrompt askPrompt first (some num)))
      (fun _ _ => False) w := by
  refine wp_chooseWithin_rejected _ _ _ hraises hopen hrejected hw hn ?_
  intro n' w₁ hinput₁ hn' houtput₁
  obtain ⟨n', rfl⟩ : ∃ m, n' = m + 1 := ⟨n' - 1, by omega⟩
  rw [chooseWithin, wp_bind]
  refine wp_chooseOnce hraises hfirst hinput₁ ?_ ?_
  · intro s' hs' w₂ hinput₂ houtput₂
    cases hs.symm.trans hs'
    rw [hsel] at houtput₂ ⊢
    refine (wp_pure num).mpr ⟨rfl, hinput₂, ?_⟩
    rw [houtput₂, houtput₁, List.append_assoc]
  · intro hnone
    rw [hs] at hnone
    cases hnone

/-- Behind rejected lines an empty line is rejected too, and more is read. -/
theorem wp_chooseWithin_empty {default : Option ℕ} {earlier : List (List UInt8)}
    {first rest : List UInt8} {n : ℕ} {w : World T}
    (hopen : ∀ line ∈ earlier, ∀ b ∈ line, ¬ EndsLine b) (hfirst : ∀ b ∈ first, ¬ EndsLine b)
    (hrejected : ∀ line ∈ earlier, Rejected options default line) (hne : earlier ≠ [])
    (hs : decoded? first = some "")
    (hw : w.input = typed earlier ++ (first ++ 13 :: rest)) (hn : w.input.length < n) :
    wp (chooseWithin env options optionPrompt askPrompt default n)
      (fun _ w' => w'.input.length < rest.length) (fun _ _ => True) w := by
  refine wp_chooseWithin_rejected _ _ _ hraises hopen hrejected hw hn ?_
  intro n' w₁ hinput₁ hn' _
  rw [defaultAfter, if_neg hne]
  obtain ⟨n', rfl⟩ : ∃ m, n' = m + 1 := ⟨n' - 1, by omega⟩
  rw [chooseWithin, wp_bind]
  refine wp_chooseOnce hraises hfirst hinput₁ ?_ fun _ _ => trivial
  intro s' hs' w₂ hinput₂ _
  cases hs.symm.trans hs'
  rw [selected?_empty, ← hinput₂]
  exact wp_chooseWithin_input _ _ _

/-- A call that returns has rejected no line but those that are UTF-8. -/
theorem decoded?_isSome_of_returns {default : Option ℕ} {earlier : List (List UInt8)}
    {rest : List UInt8} {n : ℕ} {w : World T} (hopen : ∀ line ∈ earlier, ∀ b ∈ line, ¬ EndsLine b)
    (hearlier : ∀ line ∈ earlier, ∀ k, ¬ Acceptable options default line k)
    (hw : w.input = typed earlier ++ rest) (hn : w.input.length < n)
    (h : wp (chooseWithin env options optionPrompt askPrompt default n) Q (fun _ _ => False) w) :
    ∀ line ∈ earlier, (decoded? line).isSome := by
  rcases exists_first (fun line => decoded? line = none) earlier with
    hall | ⟨pre, bad, post, rfl, hpre, hbad⟩
  · exact fun line hl => Option.isSome_iff_ne_none.mpr (hall line hl)
  · exfalso
    obtain ⟨hopen₁, hopen₂⟩ := List.forall_mem_append.mp hopen
    have hrejected : ∀ line ∈ pre, Rejected options default line := fun line hl =>
      rejected_of_not_acceptable (hearlier line (List.mem_append_left _ hl))
        (Option.isSome_iff_ne_none.mpr (hpre line hl))
    rw [typed_append, List.append_assoc, typed_cons] at hw
    refine wp_absurd h (wp_chooseWithin_rejected _ _ _ hraises hopen₁ hrejected hw hn
      fun n' w' hinput hn' _ => wp_chooseWithin_undecodable _ _ _ hraises
        (List.forall_mem_cons.mp hopen₂).1 hinput hn' hbad) ?_ ?_
    · exact fun _ _ _ h => h
    · exact fun _ _ h _ => h

/-- `choose_option` returns the number of the first acceptable line, when it has read no
further and has rejected the lines before it, if and only if those are UTF-8 and the line
is not an empty one behind them. -/
theorem chooseOption_first_iff (default : Option ℕ) {earlier later : List (List UInt8)}
    {first rest : List UInt8} {num : ℕ} {w : World T}
    (hopen : ∀ line ∈ earlier ++ first :: later, ∀ b ∈ line, ¬ EndsLine b)
    (hearlier : ∀ line ∈ earlier, ∀ k, ¬ Acceptable options default line k)
    (hfirst : Acceptable options default first num)
    (hw : w.input = typed (earlier ++ first :: later) ++ rest) :
    wp (chooseOption env options optionPrompt askPrompt default)
      (fun r w' => r = num ∧ w'.input = typed later ++ rest ∧
        w'.output = w.output ++ (rejections options optionPrompt askPrompt earlier ++
          attempt options optionPrompt askPrompt first (some num)))
      (fun _ _ => False) w ↔
    (∀ line ∈ earlier, (decoded? line).isSome) ∧ (earlier = [] ∨ decoded? first ≠ some "") := by
  obtain ⟨s, hs, hstands⟩ := hfirst
  have hsel := selected?_eq_some_iff.mpr hstands
  obtain ⟨hopen₁, hopen₂⟩ := List.forall_mem_append.mp hopen
  have hopen₃ := (List.forall_mem_cons.mp hopen₂).1
  rw [typed_append, List.append_assoc, typed_cons] at hw
  simp only [chooseOption, wp_bind, wp_get]
  constructor
  · intro h
    have hutf8 : ∀ line ∈ earlier, (decoded? line).isSome :=
      decoded?_isSome_of_returns _ _ _ hraises hopen₁ hearlier hw (Nat.lt_succ_self _) h
    refine ⟨hutf8, or_iff_not_imp_left.mpr fun hne hempty => ?_⟩
    have hrejected : ∀ line ∈ earlier, Rejected options default line := fun line hl =>
      rejected_of_not_acceptable (hearlier line hl) (hutf8 line hl)
    refine wp_absurd h (wp_chooseWithin_empty _ _ _ hraises hopen₁ hopen₃ hrejected hne hempty hw
      (Nat.lt_succ_self _)) ?_ ?_
    · rintro _ w' ⟨-, hinput, -⟩ hlt
      rw [hinput] at hlt
      exact lt_irrefl _ hlt
    · exact fun _ _ h _ => h
  · rintro ⟨hutf8, hfirst'⟩
    refine wp_chooseWithin_first _ _ _ hraises hopen₁ hopen₃ (fun line hl =>
      rejected_of_not_acceptable (hearlier line hl) (hutf8 line hl)) hs ?_ hw
      (Nat.lt_succ_self _)
    rcases hfirst' with rfl | hne
    · exact hsel
    · rw [← hsel]
      refine selected?_of_ne_empty (fun hempty => ?_) _ _ _
      exact hne (hempty ▸ hs)

end Choose

/-- The only option is the default. A user who has entered an `x` and then only CR waits for
ever; one who has entered a byte that is not UTF-8 is out. -/
theorem default_lost_and_undecodable :
    let w₁ : World Unit := { input := typed [[120], []] }
    let w₂ : World Unit := { input := typed [[255], []] }
    ((∀ line ∈ [[120], [255]], ∀ k, ¬ Acceptable ["do"] (some 0) line k) ∧
      Acceptable ["do"] (some 0) [] 0) ∧
    (∃ w', chooseOption .smooth ["do"] none none (some 0) w₁ = .error .waiting w') ∧
    ∃ e w', chooseOption .smooth ["do"] none none (some 0) w₂ = .error (.raised e) w' :=
  ⟨⟨by simp only [← accepted?_eq_none_iff]; decide, accepted?_eq_some_iff.mp (by decide)⟩,
    ⟨_, rfl⟩, _, _, rfl⟩

/-- A number behind a number that is out of range. -/
theorem chooseOption_first_iff_second :
    let w : World Unit := { input := typed ([[57]] ++ [48] :: []) ++ [] }
    wp (chooseOption .smooth ["do"] none none (some 0))
      (fun r w' => r = 0 ∧ w'.input = typed [] ++ [] ∧
        w'.output = w.output ++ (rejections ["do"] none none [[57]] ++
          attempt ["do"] none none [48] (some 0)))
      (fun _ _ => False) w ↔
    (∀ line ∈ [[57]], (decoded? line).isSome) ∧ ([[57]] = ([] : List (List UInt8)) ∨
      decoded? [48] ≠ some "") := by
  intro w
  have hopen : ∀ line ∈ [[57]] ++ [48] :: ([] : List (List UInt8)), ∀ b ∈ line, ¬ EndsLine b := by
    simp [EndsLine]
  have hearlier : ∀ line ∈ [[57]], ∀ k, ¬ Acceptable ["do"] (some 0) line k := by
    simp only [← accepted?_eq_none_iff]
    decide
  exact chooseOption_first_iff ["do"] none none (fun _ => rfl) (some 0) hopen hearlier
    (accepted?_eq_some_iff.mp (by decide)) rfl

end Lobbyboy.Utils
