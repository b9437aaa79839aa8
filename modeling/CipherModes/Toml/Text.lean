import CipherModes.Toml.Scalar

/-!
# TOML texts

A text is written between quotes or apostrophes, one or three of them; between
three it may have several lines. Quotes allow escapes. A text is written in the
first form that it fits.
-/

set_option autoImplicit false

namespace CipherModes.Toml

/-- A text read from the front of the input, and the rest of the input. -/
abbrev Reading := Option (List Char × List Char)

def Reading.cons (char : Char) (reading : Reading) : Reading :=
  reading.map fun (text, rest) => (char :: text, rest)

def isBlank (char : Char) : Bool := char == ' ' || char == '\t'

/-- A character that may stand in a text or comment as it is; tab may, other
control characters may not. -/
def isPlain (char : Char) : Bool :=
  char == '\t' || ' ' ≤ char && char.toNat ≠ 0x7f

def codePoint? (digits : List Char) : Option Char :=
  if digits.all (isDigitOf 16) then
    let value := ofDigits 16 digits
    if value.isValidChar then some (Char.ofNat value) else none
  else none

def escaped? : Char → Option Char
  | 'b' => some '\x08'
  | 't' => some '\t'
  | 'n' => some '\n'
  | 'f' => some '\x0c'
  | 'r' => some '\r'
  | '"' => some '"'
  | '\\' => some '\\'
  | _ => none

def readEscape : List Char → Option (Char × List Char)
  | 'u' :: a :: b :: c :: d :: rest => (codePoint? [a, b, c, d]).map (·, rest)
  | 'U' :: a :: b :: c :: d :: e :: f :: g :: h :: rest =>
      (codePoint? [a, b, c, d, e, f, g, h]).map (·, rest)
  | letter :: rest => (escaped? letter).map (·, rest)
  | [] => none

theorem readEscape_shorter {chars rest : List Char} {char : Char}
    (read : readEscape chars = some (char, rest)) : rest.length < chars.length := by
  unfold readEscape at read
  split at read <;> simp only [Option.map_eq_some_iff, Prod.mk.injEq, reduceCtorEq] at read
  all_goals
    obtain ⟨_, _, _, rfl⟩ := read
    simp only [List.length_cons]
    omega

/-- Reads a text on one line up to its closing quote. -/
def readBasic (chars : List Char) : Reading :=
  match chars with
  | [] => none
  | '"' :: rest => some ([], rest)
  | '\\' :: rest =>
      match _read : readEscape rest with
      | none => none
      | some (char, rest) => (readBasic rest).cons char
  | char :: rest => if isPlain char then (readBasic rest).cons char else none
termination_by chars.length
decreasing_by
  · have := readEscape_shorter _read
    simp only [List.length_cons]
    omega
  · simp

/-- Reads a text on one line up to its closing apostrophe. -/
def readLiteral : List Char → Reading
  | [] => none
  | '\'' :: rest => some ([], rest)
  | char :: rest => if isPlain char then (readLiteral rest).cons char else none

def skipSpace : List Char → List Char
  | '\r' :: '\n' :: rest => skipSpace rest
  | char :: rest => if isBlank char || char == '\n' then skipSpace rest else char :: rest
  | [] => []

/-- Blanks up to a line end, and all blanks and line ends after it. -/
def skipBreak : List Char → Option (List Char)
  | '\r' :: '\n' :: rest => some (skipSpace rest)
  | char :: rest =>
      if char == '\n' then some (skipSpace rest) else if isBlank char then skipBreak rest else none
  | [] => none

theorem length_skipSpace_le (chars : List Char) : (skipSpace chars).length ≤ chars.length := by
  fun_induction skipSpace chars with
  | case1 rest ih => simp only [List.length_cons]; omega
  | case2 char rest _ _ ih => simp only [List.length_cons]; omega
  | case3 char rest _ _ => simp
  | case4 => simp

theorem skipBreak_shorter {chars rest : List Char} (read : skipBreak chars = some rest) :
    rest.length < chars.length := by
  fun_induction skipBreak chars with
  | case1 tail =>
      cases read
      have := length_skipSpace_le tail
      simp only [List.length_cons]
      omega
  | case2 char tail _ _ =>
      cases read
      have := length_skipSpace_le tail
      simp only [List.length_cons]
      omega
  | case3 char tail _ _ _ ih =>
      have := ih read
      simp only [List.length_cons]
      omega
  | case4 => exact absurd read (by simp)
  | case5 => exact absurd read (by simp)

/-- Reads a text of several lines up to its three closing quotes, before which
one or two more may stand. A backslash at the end of a line leaves out all
blanks and line ends that follow. -/
def readMultilineBasic (chars : List Char) : Reading :=
  match chars with
  | [] => none
  | '"' :: '"' :: '"' :: '"' :: '"' :: rest => some (['"', '"'], rest)
  | '"' :: '"' :: '"' :: '"' :: rest => some (['"'], rest)
  | '"' :: '"' :: '"' :: rest => some ([], rest)
  | '\r' :: '\n' :: rest => (readMultilineBasic rest).cons '\n'
  | '\\' :: rest =>
      match _skipped : skipBreak rest with
      | some rest => readMultilineBasic rest
      | none =>
          match _read : readEscape rest with
          | none => none
          | some (char, rest) => (readMultilineBasic rest).cons char
  | char :: rest =>
      if isPlain char || char == '\n' then (readMultilineBasic rest).cons char else none
termination_by chars.length
decreasing_by
  · simp only [List.length_cons]
    omega
  · have := skipBreak_shorter _skipped
    simp only [List.length_cons]
    omega
  · have := readEscape_shorter _read
    simp only [List.length_cons]
    omega
  · simp

/-- Reads a text of several lines up to its three closing apostrophes, before
which one or two more may stand. -/
def readMultilineLiteral : List Char → Reading
  | [] => none
  | '\'' :: '\'' :: '\'' :: '\'' :: '\'' :: rest => some (['\'', '\''], rest)
  | '\'' :: '\'' :: '\'' :: '\'' :: rest => some (['\''], rest)
  | '\'' :: '\'' :: '\'' :: rest => some ([], rest)
  | '\r' :: '\n' :: rest => (readMultilineLiteral rest).cons '\n'
  | char :: rest =>
      if isPlain char || char == '\n' then (readMultilineLiteral rest).cons char else none

/-- Leaves out a line end directly after three opening quotes. -/
def skipFirstBreak : List Char → List Char
  | '\r' :: '\n' :: rest => rest
  | '\n' :: rest => rest
  | chars => chars

def readLine : List Char → Reading
  | '"' :: rest => readBasic rest
  | '\'' :: rest => readLiteral rest
  | _ => none

def readText : List Char → Reading
  | '"' :: '"' :: '"' :: rest => readMultilineBasic (skipFirstBreak rest)
  | '\'' :: '\'' :: '\'' :: rest => readMultilineLiteral (skipFirstBreak rest)
  | chars => readLine chars

inductive Form
  | basic
  | literal
  | multilineBasic
  | multilineLiteral
  deriving DecidableEq, Repr

/-- A control character other than tab, which is no obstacle to any form. -/
def isControl (char : Char) : Bool := (char < ' ' && char != '\t') || char.toNat == 0x7f

def longestRun (char : Char) (text : List Char) : Nat :=
  let step (state : Nat × Nat) (next : Char) : Nat × Nat :=
    if next == char then (state.1 + 1, max state.2 (state.1 + 1)) else (0, state.2)
  (text.foldl step (0, 0)).2

def Form.fits (text : List Char) : Form → Bool
  | basic => text.all fun char => !isControl char && char != '"' && char != '\\'
  | literal => text.all fun char => !isControl char && char != '\''
  | multilineBasic =>
      text.all (fun char => (!isControl char || char == '\n') && char != '\\') &&
        longestRun '"' text ≤ 2
  | multilineLiteral =>
      text.all (fun char => !isControl char || char == '\n') && longestRun '\'' text ≤ 2

/-- The first form that shows a text as it is; one with escapes if none does. -/
def Form.ofText (text : List Char) : Form :=
  match [basic, literal, multilineBasic, multilineLiteral].find? (·.fits text) with
  | some form => form
  | none => if text.contains '\n' then multilineBasic else basic

def fourDigits (value : Nat) : List Char :=
  let digit (place : Nat) : Char := ((Nat.toDigits 16 (value / place % 16)).headD '0').toUpper
  [digit 4096, digit 256, digit 16, digit 1]

/-- A character in a form with escapes, apart from quotes and line ends. -/
def escape : Char → List Char
  | '\x08' => ['\\', 'b']
  | '\t' => ['\\', 't']
  | '\n' => ['\\', 'n']
  | '\x0c' => ['\\', 'f']
  | '\r' => ['\\', 'r']
  | '\\' => ['\\', '\\']
  | char => if isControl char then '\\' :: 'u' :: fourDigits char.toNat else [char]

/-- The text between quotes: every quote is escaped. -/
def basicBody (text : List Char) : List Char :=
  text.flatMap fun char => if char = '"' then ['\\', '"'] else escape char

/-- The text between three quotes: lines are kept, and every third quote of a
run is escaped; `run` quotes stand directly before. -/
def multilineBody : (run : Nat) → List Char → List Char
  | _, [] => []
  | run, char :: rest =>
      if char = '"' then
        if run = 2 then '\\' :: '"' :: multilineBody 0 rest else '"' :: multilineBody (run + 1) rest
      else (if char = '\n' then ['\n'] else escape char) ++ multilineBody 0 rest

/-- A text in the form chosen for it. A form of several lines starts on a new
line if the text has several. -/
def writeText (text : List Char) : List Char :=
  let lead := if text.contains '\n' then ['\n'] else []
  match Form.ofText text with
  | .basic => '"' :: basicBody text ++ ['"']
  | .literal => '\'' :: text ++ ['\'']
  | .multilineBasic => ['"', '"', '"'] ++ lead ++ multilineBody 0 text ++ ['"', '"', '"']
  | .multilineLiteral => ['\'', '\'', '\''] ++ lead ++ text ++ ['\'', '\'', '\'']

end CipherModes.Toml
