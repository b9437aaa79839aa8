import CipherModes.Toml.Text

/-!
# TOML documents

A document is a sequence of lines: pairs, headers, comments and empty lines.
Reading is deterministic, one function for each kind of thing, on the input
that is left. Arrays and tables between braces nest up to a limit, and so do
the parts of a dotted key.
-/

set_option autoImplicit false

namespace CipherModes.Toml

/-- How deeply arrays and tables between braces may nest. -/
def nestingLimit : Nat := 79

/-- How many parts a dotted key may have. -/
def keyLimit : Nat := 79

/-- Reads a value from the front of the input. -/
abbrev Reader (α : Type) := List Char → Option (α × List Char)

def skipBlanks (chars : List Char) : List Char := chars.dropWhile isBlank

def skipComment : List Char → List Char
  | '#' :: rest => rest.dropWhile isPlain
  | chars => chars

/-- Leaves out blanks, line ends and comments, so many times at most. -/
def skipLines : (limit : Nat) → List Char → List Char
  | 0, chars => chars
  | limit + 1, chars =>
      match skipSpace chars with
      | '#' :: rest => skipLines limit (rest.dropWhile isPlain)
      | rest => rest

def skipFiller (chars : List Char) : List Char := skipLines (chars.length + 1) chars

def afterLineEnd : List Char → Option (List Char)
  | [] => some []
  | '\n' :: rest => some rest
  | '\r' :: '\n' :: rest => some rest
  | _ => none

/-- What follows the rest of a line: blanks, a comment and its end. -/
def afterLine (chars : List Char) : Option (List Char) :=
  afterLineEnd (skipComment (skipBlanks chars))

def isBareKeyChar (char : Char) : Bool :=
  isDigit char || 'a' ≤ char && char ≤ 'z' || 'A' ≤ char && char ≤ 'Z' || char == '_' ||
    char == '-'

def readKeyPart (chars : List Char) : Reading :=
  match chars.takeWhile isBareKeyChar with
  | [] => readLine chars
  | part => some (part, chars.dropWhile isBareKeyChar)

def readKeyParts : (limit : Nat) → Reader (List String)
  | 0, _ => none
  | limit + 1, chars => do
      let (part, rest) ← readKeyPart (skipBlanks chars)
      match skipBlanks rest with
      | '.' :: rest =>
          let (parts, rest) ← readKeyParts limit rest
          return (String.ofList part :: parts, rest)
      | rest => return ([String.ofList part], rest)

/-- Reads a dotted key: the way to a table, and the key there. -/
def readKey (chars : List Char) : Option ((List String × String) × List Char) := do
  let (parts, rest) ← readKeyParts keyLimit chars
  return ((parts.dropLast, ← parts.getLast?), rest)

/-- Reads items up to a closing bracket, so many at most. Each item is followed
by a comma or the bracket. -/
def readItems (readItem : Reader Value) : (limit : Nat) → Reader (List Value)
  | 0, _ => none
  | limit + 1, chars =>
      match skipFiller chars with
      | ']' :: rest => some ([], rest)
      | chars => do
          let (item, rest) ← readItem chars
          match skipFiller rest with
          | ',' :: rest =>
              let (items, rest) ← readItems readItem limit rest
              return (item :: items, rest)
          | ']' :: rest => return ([item], rest)
          | _ => none

def readPair (readItem : Reader Value) : Reader (List String × String × Value) := fun chars => do
  let ((path, key), rest) ← readKey chars
  let rest ← after? '=' rest
  let (value, rest) ← readItem (skipBlanks rest)
  return ((path, key, value), rest)

/-- Reads pairs up to a closing brace, so many at most. -/
def readPairs (readItem : Reader Value) :
    (limit : Nat) → Reader (List (List String × String × Value))
  | 0, _ => none
  | limit + 1, chars => do
      let (pair, rest) ← readPair readItem chars
      match skipBlanks rest with
      | ',' :: rest =>
          let (pairs, rest) ← readPairs readItem limit rest
          return (pair :: pairs, rest)
      | '}' :: rest => return ([pair], rest)
      | _ => none

/-- Reads a number, a truth or a moment. A date may be followed by a space and
a time. -/
def readScalar : Reader Value := fun chars => do
  let token := chars.takeWhile isTokenChar
  let rest := chars.dropWhile isTokenChar
  let value ← scalar? token
  match isDate token, rest with
  | true, ' ' :: later =>
      if isTimeAndOffset (later.takeWhile isTokenChar) then
        return (value, later.dropWhile isTokenChar)
      else return (value, rest)
  | _, _ => return (value, rest)

/-- Reads a value whose arrays and tables nest so deeply at most. -/
def readValue : (depth : Nat) → Reader Value
  | _, '"' :: rest => do
      let (text, rest) ← readText ('"' :: rest)
      return (.text (String.ofList text), rest)
  | _, '\'' :: rest => do
      let (text, rest) ← readText ('\'' :: rest)
      return (.text (String.ofList text), rest)
  | depth + 1, '[' :: rest => do
      let (items, rest) ← readItems (readValue depth) (rest.length + 1) rest
      return (.array items, rest)
  | depth + 1, '\x7b' :: rest =>
      match skipBlanks rest with
      | '}' :: rest => some (.table .written [], rest)
      | chars => do
          let (pairs, rest) ← readPairs (readValue depth) (chars.length + 1) chars
          return (.table .written (← Entries.ofPairs? pairs), rest)
  | _, chars => readScalar chars

/-- Reads a header with one pair of brackets or two, after the first bracket. -/
def readHeader : List Char → Option (Statement × List Char)
  | '[' :: rest => do
      let ((path, key), rest) ← readKey rest
      let rest ← after? ']' (← after? ']' rest)
      return (.element path key, rest)
  | chars => do
      let ((path, key), rest) ← readKey chars
      return (.header path key, ← after? ']' rest)

/-- Reads a line: a statement, or none if the line is empty or a comment. -/
def readStatement (chars : List Char) : Option (Option Statement × List Char) :=
  match skipBlanks chars with
  | '[' :: rest => do
      let (statement, rest) ← readHeader rest
      return (some statement, ← afterLine rest)
  | chars =>
      match afterLine chars with
      | some rest => some (none, rest)
      | none => do
          let ((path, key, value), rest) ← readPair (readValue nestingLimit) chars
          return (some (.pair path key value), ← afterLine rest)

/-- Reads so many lines at most, up to the end of the input. -/
def readStatements : (limit : Nat) → List Char → Option (List Statement)
  | _, [] => some []
  | 0, _ => none
  | limit + 1, chars => do
      let (statement, rest) ← readStatement chars
      let statements ← readStatements limit rest
      return statement.toList ++ statements

def skipByteOrderMark : List Char → List Char
  | '\ufeff' :: rest => rest
  | chars => chars

def readDocument? (text : List Char) : Option Entries := do
  let chars := skipByteOrderMark text
  Entries.ofStatements? (← readStatements chars.length chars)

end CipherModes.Toml
