import Lobbyboy.Utils.Lines

/-! What the user sees of the line that is being typed. The echo of a DEL moves the
cursor back and erases to the end of the line, so the terminal loses its last character;
the bytes collected for the answer keep it. The two agree exactly on the lines where no
DEL comes after a printable byte. -/

namespace Lobbyboy.Utils

open Foundation Prog

/-! ### A terminal -/

/-- The sequence that the next byte belongs to: none, one begun with ESC, or one begun
with ESC [. -/
inductive Sequence
  | none | escape | control
  deriving DecidableEq

/-- `above` are the lines that a line feed has ended. -/
structure Terminal where
  above : List (List UInt8) := []
  line : List UInt8 := []
  cursor : ℕ := 0
  sequence : Sequence := .none
  deriving DecidableEq

namespace Terminal

/-- The byte is shown at the cursor. -/
def put (t : Terminal) (b : UInt8) : Terminal :=
  { t with line := t.line.take t.cursor ++ b :: t.line.drop (t.cursor + 1), cursor := t.cursor + 1 }

def receive (t : Terminal) (b : UInt8) : Terminal :=
  match t.sequence with
  | .none =>
    if b = 8 then { t with cursor := t.cursor - 1 }
    else if b = 10 then { t with above := t.above ++ [t.line], line := [] }
    else if b = 13 then { t with cursor := 0 }
    else if b = 27 then { t with sequence := .escape }
    else t.put b
  | .escape => { t with sequence := if b = 91 then .control else .none }
  | .control =>
    -- K erases from the cursor to the end of the line
    if b = 75 then { t with line := t.line.take t.cursor, sequence := .none }
    else { t with sequence := .none }

def display (bytes : List UInt8) (t : Terminal := {}) : Terminal := bytes.foldl receive t

theorem display_append (bs cs : List UInt8) (t : Terminal) :
    display (bs ++ cs) t = display cs (display bs t) := List.foldl_append

/-- A line with the cursor behind its last character. -/
def typing (line : List UInt8) : Terminal := { line := line, cursor := line.length }

end Terminal

open Terminal

/-- Printable ASCII, which a terminal shows as it is. -/
def Printable (b : UInt8) : Prop := 32 ≤ b ∧ b ≤ 126

instance : DecidablePred Printable := fun b => inferInstanceAs (Decidable (32 ≤ b ∧ b ≤ 126))

/-- What a byte makes of the characters that are shown. -/
def edit (shown : List UInt8) (b : UInt8) : List UInt8 :=
  if b = 127 then shown.dropLast else shown ++ [b]

theorem display_echo {b : UInt8} (h : Printable b ∨ b = 127) (shown : List UInt8) :
    display (echo b) (typing shown) = typing (edit shown b) := by
  rcases h with h | rfl
  · have hne : b ≠ 8 ∧ b ≠ 10 ∧ b ≠ 13 ∧ b ≠ 27 ∧ b ≠ 127 := by
      refine ⟨?_, ?_, ?_, ?_, ?_⟩ <;> (rintro rfl; revert h; decide)
    simp [display, echo, edit, typing, receive, put, hne]
  · have hcursor : (shown.take (shown.length - 1)).length = shown.length - 1 := by simp
    simp [display, echo, edit, typing, receive, List.dropLast_eq_take, hcursor]

theorem display_echoes {line : List UInt8} (h : ∀ b ∈ line, Printable b ∨ b = 127)
    (shown : List UInt8) :
    display (line.map echo).flatten (typing shown) = typing (line.foldl edit shown) := by
  induction line generalizing shown with
  | nil => rfl
  | cons b line ih =>
    obtain ⟨hb, hline⟩ := List.forall_mem_cons.mp h
    rw [List.map_cons, List.flatten_cons, display_append, display_echo hb, ih hline,
      List.foldl_cons]

/-- The line is shown as its bytes have left it. -/
theorem display_return {line : List UInt8} (h : ∀ b ∈ line, Printable b ∨ b = 127) :
    (display (line.map echo ++ [crlf]).flatten).above = [line.foldl edit []] := by
  have hstart : ({} : Terminal) = typing [] := rfl
  rw [List.flatten_append, display_append, hstart, display_echoes h]
  simp [display, crlf, typing, receive]

/-! ### What is shown and what is collected -/

theorem foldl_edit_of_not_mem {line : List UInt8} (h : 127 ∉ line) (shown : List UInt8) :
    line.foldl edit shown = shown ++ line := by
  induction line generalizing shown with
  | nil => simp
  | cons b line ih =>
    simp only [List.mem_cons, not_or] at h
    rw [List.foldl_cons, ih h.2, edit, if_neg (Ne.symm h.1), List.append_assoc,
      List.singleton_append]

theorem length_foldl_edit_le (line shown : List UInt8) :
    (line.foldl edit shown).length ≤ shown.length + (collected line).length := by
  induction line generalizing shown with
  | nil => simp
  | cons b line ih =>
    have h := ih (edit shown b)
    by_cases hb : b = 127
    · subst hb
      simp only [edit, if_true, List.length_dropLast] at h
      rw [List.foldl_cons, collected_del]
      simp only [edit, if_true]
      omega
    · rw [List.foldl_cons, collected_cons hb, List.length_cons]
      simp only [edit, if_neg hb, List.length_append, List.length_singleton] at h ⊢
      omega

/-- A DEL that finds something to erase takes it off the screen only. -/
theorem length_foldl_edit_lt {line shown : List UInt8} (hdel : 127 ∈ line) (hshown : shown ≠ []) :
    (line.foldl edit shown).length < shown.length + (collected line).length := by
  induction line generalizing shown with
  | nil => cases hdel
  | cons b line ih =>
    rw [List.foldl_cons]
    by_cases hb : b = 127
    · subst hb
      have h := length_foldl_edit_le line shown.dropLast
      have hpos := List.length_pos_iff.mpr hshown
      rw [List.length_dropLast] at h
      rw [collected_del, edit, if_pos rfl]
      omega
    · have hline : 127 ∈ line := (List.mem_cons.mp hdel).resolve_left (Ne.symm hb)
      have h := ih hline (show shown ++ [b] ≠ [] by simp)
      rw [edit, if_neg hb, collected_cons hb, List.length_cons]
      rw [List.length_append, List.length_singleton] at h
      omega

/-- Behind the DELs that it begins with, the line has none. -/
def DelFirst (line : List UInt8) : Prop := 127 ∉ line.dropWhile (· = 127)

theorem foldl_edit_eq_collected_iff (line : List UInt8) :
    line.foldl edit [] = collected line ↔ DelFirst line := by
  unfold DelFirst
  induction line with
  | nil => simp
  | cons b line ih =>
    by_cases hb : b = 127
    · subst hb
      rw [List.foldl_cons, collected_del, List.dropWhile_cons_of_pos (by decide)]
      exact ih
    · rw [List.foldl_cons, collected_cons hb, List.dropWhile_cons_of_neg (by simpa using hb), edit,
        if_neg hb, List.nil_append, List.mem_cons, not_or]
      constructor
      · intro h
        refine ⟨Ne.symm hb, fun hdel => ?_⟩
        have hlt := length_foldl_edit_lt hdel (List.cons_ne_nil b [])
        rw [h, List.length_cons, List.length_singleton] at hlt
        omega
      · rintro ⟨-, hline⟩
        rw [foldl_edit_of_not_mem hline, collected, List.filter_eq_self.mpr]
        · rfl
        · intro c hc
          exact decide_eq_true fun h => hline (h ▸ hc)

/-! ### The line that is returned -/

/-- The line that the terminal shows once it has displayed all that was sent. -/
def Shows (sent : List (List UInt8)) (s : String) : Prop :=
  (display sent.flatten).above = [utf8 s]

instance (sent : List (List UInt8)) (s : String) : Decidable (Shows sent s) :=
  inferInstanceAs (Decidable (_ = _))

variable {T : Type}

/-- Of printable bytes and DELs, the string that is returned is the line that is shown if
and only if no DEL comes after a printable byte; nothing but the channel raises. -/
theorem readUserInputLine_shows_iff (env : Env T) (w : World T) {line rest : List UInt8}
    (hline : ∀ b ∈ line, Printable b ∨ b = 127) (hw : w.input = line ++ 13 :: rest) :
    wp (readUserInputLine env)
      (fun s w' => ∃ sent, w'.output = w.output ++ sent ∧ w'.input = rest ∧
        (Shows sent s ↔ DelFirst line))
      (fun e _ => ∃ n x, env.raises n = some x ∧ e = .raised x) w := by
  have hopen : ∀ b ∈ line, ¬ EndsLine b := by
    intro b hb hend
    have htyped := hline b hb
    rcases hend with rfl | rfl | rfl <;> revert htyped <;> decide
  have hascii : ∀ b ∈ collected line, b < 128 := by
    intro b hb
    rcases hline b (List.mem_of_mem_filter hb) with h | rfl
    · exact UInt8.lt_of_le_of_lt h.2 (by decide)
    · decide
  refine readUserInputLine_return (fun n e w' h => ⟨n, e, h, rfl⟩) hopen hw ?_ ?_
  · intro s hs
    refine ⟨_, rfl, rfl, ?_⟩
    have hbytes : utf8 s = collected line := Utf8.decode?_eq_some_iff.mp hs
    rw [Shows, display_return hline, hbytes, List.singleton_inj]
    exact foldl_edit_eq_collected_iff line
  · intro hnone
    rw [decoded?, Utf8.decode?_ascii hascii] at hnone
    cases hnone

/-- An `a` that was erased is returned all the same. -/
theorem erased_but_returned :
    let w : World Unit := { input := [97, 127, 13] }
    ∃ w', readUserInputLine .smooth w = .ok "a" w' ∧ Shows w'.output "" ∧ ¬ Shows w'.output "a" :=
  ⟨_, rfl, rfl, by decide⟩

theorem readUserInputLine_shows_iff_typed :
    let w : World Unit := { input := [127, 49, 50, 13] }
    wp (readUserInputLine .smooth)
      (fun s w' => ∃ sent, w'.output = w.output ++ sent ∧ w'.input = [] ∧
        (Shows sent s ↔ DelFirst [127, 49, 50]))
      (fun e _ => ∃ n x, (Env.smooth (T := Unit)).raises n = some x ∧ e = .raised x) w := by
  intro w
  have hline : ∀ b ∈ ([127, 49, 50] : List UInt8), Printable b ∨ b = 127 := by simp [Printable]
  exact readUserInputLine_shows_iff .smooth w hline rfl

end Lobbyboy.Utils
