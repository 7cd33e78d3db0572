import Mathlib.Data.Int.Notation
import Mathlib.Data.Nat.Notation

/-! JSON values and their text, in the dialect of Python's `json` module with its
default arguments: `", "` and `": "` as separators, every character outside printable
ASCII escaped, characters beyond the basic plane as a surrogate pair. The reader
accepts the whole JSON grammar, white space and floats included. A float keeps its
literal: nothing computes with it. A text that escapes a lone surrogate has no
counterpart among Lean strings and is refused. -/

namespace Lobbyboy.Foundation

/-- A JSON value. Objects keep their members as written; a reader that looks a name
up takes the last one. -/
inductive Json where
  | null
  | bool (b : Bool)
  | int (i : ℤ)
  | float (literal : List Char)
  | str (s : String)
  | arr (xs : List Json)
  | obj (ms : List (String × Json))

namespace Json

/-! ### Writing -/

def hexDigit (n : ℕ) : Char := if n < 10 then Char.ofNat (48 + n) else Char.ofNat (87 + n)

/-- `\uXXXX`, lower case. -/
def escapeUnit (n : ℕ) : List Char :=
  ['\\', 'u', hexDigit (n / 4096 % 16), hexDigit (n / 256 % 16), hexDigit (n / 16 % 16),
    hexDigit (n % 16)]

def escapeChar (c : Char) : List Char :=
  if c = '"' then ['\\', '"']
  else if c = '\\' then ['\\', '\\']
  else if c = '\n' then ['\\', 'n']
  else if c = '\r' then ['\\', 'r']
  else if c = '\t' then ['\\', 't']
  else if c = '\x0c' then ['\\', 'f']
  else if c = '\x08' then ['\\', 'b']
  else if 32 ≤ c.toNat ∧ c.toNat < 127 then [c]
  else if c.toNat < 65536 then escapeUnit c.toNat
  else escapeUnit (55296 + (c.toNat - 65536) / 1024) ++
    escapeUnit (56320 + (c.toNat - 65536) % 1024)

def escapeChars : List Char → List Char
  | [] => []
  | c :: cs => escapeChar c ++ escapeChars cs

def renderString (s : String) : List Char := '"' :: (escapeChars s.toList ++ ['"'])

def renderInt : ℤ → List Char
  | .ofNat n => Nat.toDigits 10 n
  | .negSucc n => '-' :: Nat.toDigits 10 (n + 1)

mutual

def render : Json → List Char
  | .null => ['n', 'u', 'l', 'l']
  | .bool true => ['t', 'r', 'u', 'e']
  | .bool false => ['f', 'a', 'l', 's', 'e']
  | .int i => renderInt i
  | .float l => l
  | .str s => renderString s
  | .arr [] => ['[', ']']
  | .arr (x :: xs) => '[' :: (render x ++ renderItems xs)
  | .obj [] => ['{', '}']
  | .obj ((k, x) :: ms) => '{' :: (renderString k ++ ':' :: ' ' :: (render x ++ renderMembers ms))

/-- The items after the first one, with the closing bracket. -/
def renderItems : List Json → List Char
  | [] => [']']
  | x :: xs => ',' :: ' ' :: (render x ++ renderItems xs)

/-- The members after the first one, with the closing brace. -/
def renderMembers : List (String × Json) → List Char
  | [] => ['}']
  | (k, x) :: ms => ',' :: ' ' :: (renderString k ++ ':' :: ' ' :: (render x ++ renderMembers ms))

end

def dumps (v : Json) : String := String.ofList v.render

/-! ### Reading -/

def isSpace (c : Char) : Bool := c = ' ' || c = '\t' || c = '\n' || c = '\r'

def skipSpaces : List Char → List Char
  | [] => []
  | c :: cs => if isSpace c then skipSpaces cs else c :: cs

def hexValue (c : Char) : Option ℕ :=
  if 48 ≤ c.toNat ∧ c.toNat ≤ 57 then some (c.toNat - 48)
  else if 97 ≤ c.toNat ∧ c.toNat ≤ 102 then some (c.toNat - 87)
  else if 65 ≤ c.toNat ∧ c.toNat ≤ 70 then some (c.toNat - 55)
  else none

def hexUnit (a b c d : Char) : Option ℕ := do
  return 4096 * (← hexValue a) + 256 * (← hexValue b) + 16 * (← hexValue c) + (← hexValue d)

def unescape (c : Char) : Option Char :=
  if c = '"' then some '"'
  else if c = '\\' then some '\\'
  else if c = '/' then some '/'
  else if c = 'b' then some '\x08'
  else if c = 'f' then some '\x0c'
  else if c = 'n' then some '\n'
  else if c = 'r' then some '\r'
  else if c = 't' then some '\t'
  else none

def isHigh (n : ℕ) : Bool := 55296 ≤ n && n < 56320

def isLow (n : ℕ) : Bool := 56320 ≤ n && n < 57344

/-- The characters up to the closing quote, and the rest. -/
def scanString : List Char → Option (List Char × List Char)
  | [] => none
  | c :: r =>
    if c = '"' then some ([], r)
    else if c = '\\' then
      match r with
      | [] => none
      | e :: r =>
        if e = 'u' then
          match r with
          | h₁ :: h₂ :: h₃ :: h₄ :: r =>
            match hexUnit h₁ h₂ h₃ h₄ with
            | none => none
            | some n =>
              if isHigh n then
                match r with
                | b :: u :: g₁ :: g₂ :: g₃ :: g₄ :: r =>
                  if b = '\\' ∧ u = 'u' then
                    match hexUnit g₁ g₂ g₃ g₄ with
                    | none => none
                    | some m =>
                      if isLow m then
                        (scanString r).map fun p =>
                          (Char.ofNat (65536 + (n - 55296) * 1024 + (m - 56320)) :: p.1, p.2)
                      else none
                  else none
                | _ => none
              else if isLow n then none
              else (scanString r).map fun p => (Char.ofNat n :: p.1, p.2)
          | _ => none
        else
          match unescape e with
          | none => none
          | some c => (scanString r).map fun p => (c :: p.1, p.2)
    else if c.toNat < 32 then none
    else (scanString r).map fun p => (c :: p.1, p.2)

/-- The leading ASCII digits, and the rest. -/
def scanDigits : List Char → List Char × List Char
  | [] => ([], [])
  | c :: cs => if c.isDigit then ((c :: (scanDigits cs).1), (scanDigits cs).2) else ([], c :: cs)

/-- `0`, or digits that do not start with `0`. -/
def scanWhole : List Char → Option (List Char × List Char)
  | [] => none
  | c :: cs =>
    if c = '0' then some (['0'], cs)
    else if c.isDigit then some (scanDigits (c :: cs)) else none

/-- `.` and at least one digit; otherwise nothing is taken. -/
def scanFraction : List Char → List Char × List Char
  | c :: d :: cs =>
    if c = '.' ∧ d.isDigit then ('.' :: (scanDigits (d :: cs)).1, (scanDigits (d :: cs)).2)
    else ([], c :: d :: cs)
  | cs => ([], cs)

def scanSign : List Char → List Char × List Char
  | [] => ([], [])
  | c :: cs => if c = '+' ∨ c = '-' then ([c], cs) else ([], c :: cs)

/-- `e`, an optional sign and at least one digit; otherwise nothing is taken. -/
def scanExponent : List Char → List Char × List Char
  | [] => ([], [])
  | c :: cs =>
    if c = 'e' ∨ c = 'E' then
      let s := scanSign cs
      let ds := scanDigits s.2
      if ds.1 = [] then ([], c :: cs) else (c :: (s.1 ++ ds.1), ds.2)
    else ([], c :: cs)

def scanUnsigned (neg : Bool) (cs : List Char) : Option (Json × List Char) := do
  let w ← scanWhole cs
  let f := scanFraction w.2
  let e := scanExponent f.2
  if f.1 = [] ∧ e.1 = [] then
    let n : ℕ := Nat.ofDigitChars 10 w.1 0
    return (.int (if neg then -n else n), e.2)
  else
    return (.float ((if neg then ['-'] else []) ++ w.1 ++ f.1 ++ e.1), e.2)

def scanLiteral (w : List Char) (v : Json) (cs : List Char) : Option (Json × List Char) :=
  if w <+: cs then some (v, cs.drop w.length) else none

/-- Literals and numbers, by their first character. -/
def scanAtom (c : Char) (cs : List Char) : Option (Json × List Char) :=
  if c = 'n' then scanLiteral ['u', 'l', 'l'] .null cs
  else if c = 't' then scanLiteral ['r', 'u', 'e'] (.bool true) cs
  else if c = 'f' then scanLiteral ['a', 'l', 's', 'e'] (.bool false) cs
  else if c = 'N' then scanLiteral ['a', 'N'] (.float ['N', 'a', 'N']) cs
  else if c = 'I' then scanLiteral infinity (.float ('I' :: infinity)) cs
  else if c = '-' then
    (scanLiteral ('I' :: infinity) (.float ('-' :: 'I' :: infinity)) cs).or (scanUnsigned true cs)
  else scanUnsigned false (c :: cs)
where infinity : List Char := ['n', 'f', 'i', 'n', 'i', 't', 'y']

mutual

/-- One value, and the rest of the text. Each nested value and each further item uses
one unit of fuel. -/
def scanValue : ℕ → List Char → Option (Json × List Char)
  | 0, _ => none
  | _ + 1, [] => none
  | n + 1, c :: cs =>
    if c = '"' then (scanString cs).map fun p => (.str (String.ofList p.1), p.2)
    else if c = '[' then
      match skipSpaces cs with
      | [] => none
      | d :: r =>
        if d = ']' then some (.arr [], r)
        else (scanItems n (d :: r)).map fun p => (.arr p.1, p.2)
    else if c = '{' then
      match skipSpaces cs with
      | [] => none
      | d :: r =>
        if d = '}' then some (.obj [], r)
        else (scanMembers n (d :: r)).map fun p => (.obj p.1, p.2)
    else scanAtom c cs

/-- Items up to the closing bracket. -/
def scanItems : ℕ → List Char → Option (List Json × List Char)
  | 0, _ => none
  | n + 1, cs =>
    match scanValue n cs with
    | none => none
    | some (v, r) =>
      match skipSpaces r with
      | [] => none
      | d :: r =>
        if d = ']' then some ([v], r)
        else if d = ',' then (scanItems n (skipSpaces r)).map fun p => (v :: p.1, p.2)
        else none

/-- Members up to the closing brace. -/
def scanMembers : ℕ → List Char → Option (List (String × Json) × List Char)
  | 0, _ => none
  | _ + 1, [] => none
  | n + 1, c :: cs =>
    if c = '"' then
      match scanString cs with
      | none => none
      | some (k, r) =>
        match skipSpaces r with
        | [] => none
        | d :: r =>
          if d = ':' then
            match scanValue n (skipSpaces r) with
            | none => none
            | some (v, r) =>
              match skipSpaces r with
              | [] => none
              | d :: r =>
                if d = '}' then some ([(String.ofList k, v)], r)
                else if d = ',' then
                  (scanMembers n (skipSpaces r)).map fun p => ((String.ofList k, v) :: p.1, p.2)
                else none
          else none
    else none

end

/-- Fuel that no text of this length can use up. -/
def fuel (cs : List Char) : ℕ := 2 * cs.length + 2

/-- The value of a text; `none` is `JSONDecodeError`. -/
def loads (text : String) : Option Json :=
  match scanValue (fuel text.toList) (skipSpaces text.toList) with
  | none => none
  | some (v, r) => if skipSpaces r = [] then some v else none

end Json

end Lobbyboy.Foundation
