import Lobbyboy.Utils.Durations
import Lobbyboy.World

/-! Asking the user through the channel: `read_user_input_line`, which echoes what it
reads byte by byte, and `choose_option`, which asks again until a line is acceptable. A
client that sends nothing more leaves both waiting. -/

namespace Lobbyboy.Utils

open Foundation Prog

variable {T : Type} (env : Env T)

/-! ### `int` of a string -/

/-- The characters that `str.strip` takes off. -/
def isSpace (c : Char) : Bool :=
  let n := c.toNat
  9 ≤ n && n ≤ 13 || 28 ≤ n && n ≤ 32 || n = 0x85 || n = 0xa0 || n = 0x1680 ||
    0x2000 ≤ n && n ≤ 0x200a || n = 0x2028 || n = 0x2029 || n = 0x202f || n = 0x205f || n = 0x3000

/-- Those of them that `int` takes off: not the four separators of ASCII. -/
def isIntSpace (c : Char) : Bool := isSpace c && !(28 ≤ c.toNat && c.toNat ≤ 31)

/-- Digits, with single underscores between them. -/
def intDigits (acc : ℕ) (afterDigit : Bool) : List Char → Option ℕ
  | [] => if afterDigit then some acc else none
  | '_' :: cs => if afterDigit then intDigits acc false cs else none
  | c :: cs =>
    match decimalDigit? c with
    | some d => intDigits (10 * acc + d) true cs
    | none => none

/-- `int(s)`; `none` is its `ValueError`. -/
def pyInt (s : String) : Option ℤ :=
  match ((s.toList.dropWhile isIntSpace).reverse.dropWhile isIntSpace).reverse with
  | '-' :: cs => (intDigits 0 false cs).map fun n => -(n : ℤ)
  | '+' :: cs => (intDigits 0 false cs).map Int.ofNat
  | cs => (intDigits 0 false cs).map Int.ofNat

example : [pyInt " 1_0\n", pyInt "-3", pyInt "1__0", pyInt "\x1c1", pyInt ""] =
    [some 10, some (-3), none, none, none] := by
  decide

/-! ### Reading a line -/

/-- The bytes that are yet to come, and those of the line read so far. -/
def readLine : List UInt8 → List UInt8 → Prog T (List UInt8)
  | [], _ => throw .waiting
  | b :: bs, chars => do
    call env
    modify fun w => { w with input := bs }
    if b = 3 ∨ b = 4 then raise ⟨.userCancelException, ""⟩
    else if b = 13 then do
      sendToChannel env []
      return chars
    else if b = 127 then do
      sendToChannel env [8, 27, 91, 75] []
      readLine bs chars
    else do
      sendToChannel env [b] []
      readLine bs (chars ++ [b])

/-- A line that is not UTF-8 is a `UnicodeDecodeError`, which is a `ValueError`. -/
def readUserInputLine : Prog T String := do
  let w ← get
  let chars ← readLine env w.input []
  match String.fromUTF8? ⟨chars.toArray⟩ with
  | some line => return line
  | none => raise ⟨.valueError, "'utf-8' codec can't decode"⟩

/-! ### Choosing -/

/-- The options with their numbers, `f"{index:>3} - {option}"`. -/
def sendOptions : ℕ → List String → Prog T Unit
  | _, [] => pure ()
  | index, option :: options => do
    let number := toString index
    let padding := String.ofList (List.replicate (3 - number.length) ' ')
    sendToChannel env (utf8 s!"{padding}{number} - {option}")
    sendOptions (index + 1) options

/-- The option that a line stands for. -/
def selected? (options : List String) (default : Option ℕ) (result : String) : Option ℕ := do
  let numSelected ← if result = "" ∧ default.isSome then default.map Int.ofNat else pyInt result
  if 0 ≤ numSelected ∧ numSelected < options.length then some numSelected.toNat else none

def unknownChoice (options : List String) : Prog T (Option ℕ) := do
  sendToChannel env (utf8 s!"unknown choice, please choose again [0-{(options.length : ℤ) - 1}]")
  return none

/-- One prompt and the line that answers it. -/
def chooseOnce (options : List String) (optionPrompt askPrompt : Option String)
    (default : Option ℕ) : Prog T (Option ℕ) := do
  sendToChannel env (utf8 (optionPrompt.getD "Available options:"))
  sendOptions env 0 options
  sendToChannel env (utf8 (askPrompt.getD
    s!"Please enter the number of choice[0-{(options.length : ℤ) - 1}]: ")) []
  let result ← readUserInputLine env
  match selected? options default result with
  | none => unknownChoice env options
  | some num =>
    handle (do
      sendToChannel env (utf8 ("You selected: " ++ options.getD num ""))
      return some num) fun _ => unknownChoice env options

/-- Asks up to that many times; only the first time with the default. -/
def chooseWithin (options : List String) (optionPrompt askPrompt : Option String) :
    Option ℕ → ℕ → Prog T ℕ
  | _, 0 => throw .waiting
  | default, n + 1 => do
    match ← chooseOnce env options optionPrompt askPrompt default with
    | some num => return num
    | none => chooseWithin options optionPrompt askPrompt none n

/-- Every line takes a byte, so there are no more lines than bytes to come. -/
def chooseOption (options : List String) (optionPrompt askPrompt : Option String := none)
    (default : Option ℕ := none) : Prog T ℕ := do
  let w ← get
  chooseWithin env options optionPrompt askPrompt default (w.input.length + 1)

/-! ### The user is asked, and nothing else happens -/

variable {env}

theorem silent_readLine (bs chars : List UInt8) : Keeps silent (readLine env bs chars) := by
  induction bs generalizing chars with
  | nil => exact .throw _
  | cons b bs ih =>
    refine .bind silent_call fun _ => .bind (.modify fun w => ⟨rfl, rfl, rfl, rfl⟩) fun _ => ?_
    refine .ite (silent_raise _) (.ite ?_ (.ite ?_ ?_))
    · exact .bind (silent_sendToChannel _ _) fun _ => .pure _
    · exact .bind (silent_sendToChannel _ _) fun _ => ih _
    · exact .bind (silent_sendToChannel _ _) fun _ => ih _

theorem silent_readUserInputLine : Keeps silent (readUserInputLine env) := by
  refine .bind .get fun w => .bind (silent_readLine _ _) fun chars => ?_
  split
  · exact .pure _
  · exact silent_raise _

theorem silent_sendOptions (index : ℕ) (options : List String) :
    Keeps silent (sendOptions env index options) := by
  induction options generalizing index with
  | nil => exact .pure _
  | cons option options ih => exact .bind (silent_sendToChannel _ _) fun _ => ih _

section Choose

variable (options : List String) (optionPrompt askPrompt : Option String) (default : Option ℕ)

theorem silent_chooseOnce :
    Keeps silent (chooseOnce env options optionPrompt askPrompt default) := by
  refine .bind (silent_sendToChannel _ _) fun _ => .bind (silent_sendOptions _ _) fun _ =>
    .bind (silent_sendToChannel _ _) fun _ => .bind silent_readUserInputLine fun result => ?_
  have hunknown : Keeps silent (unknownChoice env options) :=
    .bind (silent_sendToChannel _ _) fun _ => .pure _
  cases selected? options default result with
  | none => exact hunknown
  | some num =>
    exact silent_handle (.bind (silent_sendToChannel _ _) fun _ => .pure _) fun _ => hunknown

theorem silent_chooseWithin (n : ℕ) :
    Keeps silent (chooseWithin env options optionPrompt askPrompt default n) := by
  induction n generalizing default with
  | zero => exact .throw _
  | succ n ih =>
    refine .bind (silent_chooseOnce _ _ _ _) fun r => ?_
    cases r with
    | none => exact ih none
    | some num => exact .pure _

theorem silent_chooseOption :
    Keeps silent (chooseOption env options optionPrompt askPrompt default) :=
  .bind .get fun _ => silent_chooseWithin _ _ _ _ _

/-! ### There are enough prompts -/

/-- A line that was read has taken a byte. -/
theorem readLine_input {bs chars : List UInt8} {w : World T} :
    wp (readLine env bs chars) (fun _ w' => w'.input.length < bs.length) (fun _ _ => True) w := by
  induction bs generalizing chars w with
  | nil => simp [readLine]
  | cons b bs ih =>
    have hnext : ∀ (chars : List UInt8) (w : World T), wp (readLine env bs chars)
        (fun _ w' => w'.input.length < (b :: bs).length) (fun _ _ => True) w :=
      fun _ _ => wp_mono ih (fun _ _ h => Nat.lt_succ_of_lt h) fun _ _ h => h
    simp only [readLine, wp_bind, wp_call, wp_modify, wp_ite, wp_raise, wp_sendToChannel, wp_pure,
      implies_true, and_true]
    intro _
    split_ifs
    · exact fun _ => Nat.lt_succ_self _
    · exact fun _ => hnext _ _
    · exact fun _ => hnext _ _

theorem readUserInputLine_input {w : World T} :
    wp (readUserInputLine env) (fun _ w' => w'.input.length < w.input.length)
      (fun _ _ => True) w := by
  simp only [readUserInputLine, wp_bind, wp_get]
  refine wp_mono readLine_input (fun chars w' h => ?_) fun _ _ h => h
  split
  · simpa using h
  · simp

theorem sendOptions_input {index n : ℕ} {w : World T} (h : w.input.length = n) :
    wp (sendOptions env index options) (fun _ w' => w'.input.length = n) (fun _ _ => True) w := by
  induction options generalizing index w with
  | nil => simpa [sendOptions] using h
  | cons option options ih =>
    simp only [sendOptions, wp_bind, wp_sendToChannel, implies_true, and_true]
    exact fun _ => ih h

/-- A prompt that was not answered acceptably has taken a byte too. -/
theorem chooseOnce_input {w : World T} :
    wp (chooseOnce env options optionPrompt askPrompt default)
      (fun _ w' => w'.input.length < w.input.length) (fun _ _ => True) w := by
  simp only [chooseOnce, wp_bind, wp_sendToChannel, implies_true, and_true]
  intro _
  refine wp_mono (sendOptions_input options rfl) (fun _ w₁ h₁ => ?_) fun _ _ h => h
  intro _
  refine wp_mono readUserInputLine_input (fun result w₂ h₂ => ?_) fun _ _ h => h
  have hlt : w₂.input.length < w.input.length := lt_of_lt_of_eq h₂ h₁
  cases selected? options default result with
  | none => simpa [unknownChoice] using fun _ => hlt
  | some num => simpa [unknownChoice] using ⟨fun _ => hlt, fun _ _ _ => hlt⟩

theorem chooseWithin_succ (n : ℕ) (w : World T) :
    chooseWithin env options optionPrompt askPrompt default (n + 1) w =
      match chooseOnce env options optionPrompt askPrompt default w with
      | .ok (some num) w' => .ok num w'
      | .ok none w' => chooseWithin env options optionPrompt askPrompt none n w'
      | .error e w' => .error e w' := by
  rw [chooseWithin, bind_apply]
  cases chooseOnce env options optionPrompt askPrompt default w with
  | error e w' => rfl
  | ok r w' => cases r <;> rfl

/-- With as many prompts as there are bytes, and one, there are enough. -/
theorem chooseWithin_enough {n : ℕ} {w : World T} (h : w.input.length < n) :
    chooseWithin env options optionPrompt askPrompt default (n + 1) w =
      chooseWithin env options optionPrompt askPrompt default n w := by
  induction n generalizing default w with
  | zero => cases h
  | succ n ih =>
    rw [chooseWithin_succ, chooseWithin_succ]
    cases hr : chooseOnce env options optionPrompt askPrompt default w with
    | error e w' => rfl
    | ok r w' =>
      cases r with
      | some num => rfl
      | none =>
        have hlt := wp_of_ok (chooseOnce_input options optionPrompt askPrompt default) hr
        exact ih none (by omega)

end Choose

end Lobbyboy.Utils
