import Lobbyboy.Foundation.Utf8
import Lobbyboy.Utils.Channel

/-! The lines that a client types. A line is the bytes before the one that ends it; of
these, a DEL is echoed as an erasure and the others are echoed and collected. What
`read_user_input_line` makes of a line does not depend on what follows it. -/

namespace Lobbyboy.Utils

open Foundation Prog

/-! ### Bytes of a line -/

/-- Ctrl-C and Ctrl-D end the call, CR the line. -/
def EndsLine (b : UInt8) : Prop := b = 3 ∨ b = 4 ∨ b = 13

instance : DecidablePred EndsLine := fun b =>
  inferInstanceAs (Decidable (b = 3 ∨ b = 4 ∨ b = 13))

/-- What is sent back for a byte of a line. -/
def echo (b : UInt8) : List UInt8 := if b = 127 then [8, 27, 91, 75] else [b]

/-- The bytes of a line that are collected. -/
def collected (line : List UInt8) : List UInt8 := line.filter (· ≠ 127)

@[simp] theorem collected_nil : collected [] = [] := rfl

@[simp] theorem collected_del (line : List UInt8) :
    collected (127 :: line) = collected line := rfl

theorem collected_cons {b : UInt8} (h : b ≠ 127) (line : List UInt8) :
    collected (b :: line) = b :: collected line := by
  simp [collected, h]

/-- The string of a line; `none` is the `UnicodeDecodeError`. -/
def decoded? (line : List UInt8) : Option String := Utf8.decode? (collected line)

/-- A list up to the first of its entries with a property, if there is one. -/
theorem exists_first {α : Type} (p : α → Prop) (l : List α) :
    (∀ a ∈ l, ¬ p a) ∨ ∃ l₁ a l₂, l = l₁ ++ a :: l₂ ∧ (∀ c ∈ l₁, ¬ p c) ∧ p a := by
  induction l with
  | nil => exact .inl (List.forall_mem_nil _)
  | cons b l ih =>
    by_cases hb : p b
    · exact .inr ⟨[], b, l, rfl, List.forall_mem_nil _, hb⟩
    · rcases ih with h | ⟨l₁, a, l₂, rfl, h, ha⟩
      · exact .inl (List.forall_mem_cons.mpr ⟨hb, h⟩)
      · exact .inr ⟨b :: l₁, a, l₂, rfl, List.forall_mem_cons.mpr ⟨hb, h⟩, ha⟩

/-! ### Reading them -/

variable {T : Type} {env : Env T}

/-- The line has been read and echoed, and `rest` is yet to come. -/
def afterLine (w : World T) (line rest : List UInt8) : World T :=
  { w with
    tick := w.tick + 2 * line.length
    input := rest
    output := w.output ++ line.map echo }

/-- CR has been read too, and its echo sent. -/
def afterReturn (w : World T) (line rest : List UInt8) : World T :=
  { w with
    tick := w.tick + 2 * line.length + 2
    input := rest
    output := w.output ++ (line.map echo ++ [crlf]) }

/-- Only the calls of the channel raise. -/
def RaisedBy (env : Env T) (E : Stop → World T → Prop) : Prop :=
  ∀ n e w, env.raises n = some e → E (.raised e) w

section Specs

variable {E : Stop → World T → Prop} {line rest chars : List UInt8} {w : World T}

/-- The bytes of a line are read one by one, and collected. -/
theorem readLine_append {Q : List UInt8 → World T → Prop} (hE : RaisedBy env E)
    (hline : ∀ b ∈ line, ¬ EndsLine b) (hw : w.input = line ++ rest)
    (h : wp (readLine env rest (chars ++ collected line)) Q E (afterLine w line rest)) :
    wp (readLine env (line ++ rest) chars) Q E w := by
  induction line generalizing chars w with
  | nil =>
    have hid : afterLine w [] rest = w := by
      rw [List.nil_append] at hw
      subst hw
      simp [afterLine]
    simpa [hid] using h
  | cons b line ih =>
    obtain ⟨hb, htail⟩ := List.forall_mem_cons.mp hline
    simp only [EndsLine, not_or] at hb
    have htick : w.tick + 2 * (b :: line).length = w.tick + 1 + 1 + 2 * line.length := by
      rw [List.length_cons]
      omega
    rw [afterLine, htick] at h
    simp only [List.cons_append, readLine, wp_bind, wp_call, wp_modify, wp_ite, hb,
      or_self, if_false, wp_sendToChannel, List.append_nil]
    refine ⟨fun _ => ?_, fun e he => hE _ _ _ he⟩
    split_ifs with hdel
    · subst hdel
      refine ⟨fun _ => ih htail rfl ?_, fun e he => hE _ _ _ he⟩
      simpa [afterLine, World.next, echo] using h
    · refine ⟨fun _ => ih htail rfl ?_, fun e he => hE _ _ _ he⟩
      simpa [afterLine, World.next, echo, hdel, collected_cons hdel] using h

/-- CR ends the line. -/
theorem readLine_return {Q : List UInt8 → World T → Prop} (hE : RaisedBy env E)
    (hline : ∀ b ∈ line, ¬ EndsLine b) (hw : w.input = line ++ 13 :: rest)
    (h : Q (chars ++ collected line) (afterReturn w line rest)) :
    wp (readLine env (line ++ 13 :: rest) chars) Q E w := by
  refine readLine_append hE hline hw ?_
  have h13 : ¬ ((13 : UInt8) = 3 ∨ (13 : UInt8) = 4) := by decide
  simp only [readLine, wp_bind, wp_call, wp_modify, wp_sendToChannel, wp_pure, h13,
    if_false, if_true]
  refine ⟨fun _ => ⟨fun _ => ?_, fun e he => hE _ _ _ he⟩, fun e he => hE _ _ _ he⟩
  simpa [afterLine, afterReturn, World.next] using h

/-- The string of the line, or the failure to decode it. -/
theorem readUserInputLine_return {Q : String → World T → Prop} (hE : RaisedBy env E)
    (hline : ∀ b ∈ line, ¬ EndsLine b) (hw : w.input = line ++ 13 :: rest)
    (hQ : ∀ s, decoded? line = some s → Q s (afterReturn w line rest))
    (hnone : decoded? line = none →
      E (.raised ⟨.valueError, "'utf-8' codec can't decode"⟩) (afterReturn w line rest)) :
    wp (readUserInputLine env) Q E w := by
  simp only [readUserInputLine, wp_bind, wp_get]
  rw [hw]
  refine readLine_return hE hline hw ?_
  rw [List.nil_append]
  split
  · next s hs => exact (wp_pure s).mpr (hQ s hs)
  · next hs => exact (wp_raise _).mpr (hnone hs)

/-- A string that is returned is that of a line which the client has sent. -/
theorem readUserInputLine_spec {w : World T} :
    wp (readUserInputLine env) (fun s w' => ∃ line rest, w.input = line ++ 13 :: rest ∧
      (∀ b ∈ line, ¬ EndsLine b) ∧ decoded? line = some s ∧ w' = afterReturn w line rest)
      (fun _ _ => True) w := by
  rcases exists_first EndsLine w.input with hopen | ⟨line, b, rest, hw, hline, hb⟩
  · simp only [readUserInputLine, wp_bind, wp_get]
    have h : wp (readLine env (w.input ++ []) []) (fun _ _ => False) (fun _ _ => True) w :=
      readLine_append (fun _ _ _ _ => trivial) hopen (List.append_nil _).symm (by simp [readLine])
    rw [List.append_nil] at h
    exact wp_mono h (fun _ _ h => h.elim) fun _ _ h => h
  · by_cases h13 : b = 13
    · subst h13
      exact readUserInputLine_return (fun _ _ _ _ => trivial) hline hw
        (fun s hs => ⟨line, rest, hw, hline, hs, rfl⟩) fun _ => trivial
    · have hctrl : b = 3 ∨ b = 4 := by
        rcases hb with h | h | h
        · exact .inl h
        · exact .inr h
        · exact absurd h h13
      simp only [readUserInputLine, wp_bind, wp_get]
      rw [hw]
      refine readLine_append (fun _ _ _ _ => trivial) hline hw ?_
      simp [readLine, hctrl]

end Specs

end Lobbyboy.Utils
