import CipherModes.Toml.Value

/-!
# TOML numbers, truths and moments

A value that is no text, array or table is one token. Integers have 64 bits;
digits may be grouped by single underscores. A number with a fraction or an
exponent must not be so large that it rounds to infinity. Moments are dates,
times and both, with an offset or without.
-/

set_option autoImplicit false

namespace CipherModes.Toml

def isDigit (char : Char) : Bool := '0' ≤ char && char ≤ '9'

def digitValue (char : Char) : Nat :=
  if isDigit char then char.toNat - '0'.toNat
  else if 'a' ≤ char && char ≤ 'f' then char.toNat - 'a'.toNat + 10
  else if 'A' ≤ char && char ≤ 'F' then char.toNat - 'A'.toNat + 10
  else 16

def isDigitOf (base : Nat) (char : Char) : Bool := digitValue char < base

def ofDigits (base : Nat) (digits : List Char) : Nat :=
  digits.foldl (fun value digit => base * value + digitValue digit) 0

/-- Digits without their underscores, of which each stands between two digits. -/
def ungroup? (base : Nat) : List Char → Option (List Char)
  | [] => none
  | [digit] => if isDigitOf base digit then some [digit] else none
  | digit :: '_' :: rest =>
      if isDigitOf base digit then (ungroup? base rest).map (digit :: ·) else none
  | digit :: rest =>
      if isDigitOf base digit then (ungroup? base rest).map (digit :: ·) else none

/-- A sign at the front, and what it stands before. -/
def splitSign : List Char → Bool × List Char
  | '-' :: rest => (true, rest)
  | '+' :: rest => (false, rest)
  | chars => (false, chars)

/-- Decimal digits that do not start with a zero unless they are one. -/
def plainDigits? (chars : List Char) : Option (List Char) := do
  let digits ← ungroup? 10 chars
  if digits.length > 1 && digits.head? == some '0' then none else some digits

def checkedInteger? (value : Int) : Option Int :=
  if -0x8000000000000000 ≤ value ∧ value < 0x8000000000000000 then some value else none

def integer? (chars : List Char) : Option Int :=
  match chars with
  | '0' :: 'x' :: rest => do checkedInteger? (ofDigits 16 (← ungroup? 16 rest))
  | '0' :: 'o' :: rest => do checkedInteger? (ofDigits 8 (← ungroup? 8 rest))
  | '0' :: 'b' :: rest => do checkedInteger? (ofDigits 2 (← ungroup? 2 rest))
  | _ => do
      let (negative, rest) := splitSign chars
      let magnitude := Int.ofNat (ofDigits 10 (← plainDigits? rest))
      checkedInteger? (if negative then -magnitude else magnitude)

/-- The least number that rounds to infinity: half a unit above the greatest
finite number of 53 binary digits. -/
def overflowBound : Nat := 1 <<< 1024 - 1 <<< 970

/-- The number of the digits, moved by a power of ten, rounds to infinity. -/
def overflows (digits : List Char) (exponent : Int) : Bool :=
  let significant := digits.dropWhile (· == '0')
  let magnitude : Int := significant.length + exponent
  if significant.isEmpty || magnitude < 309 then false
  else if 309 < magnitude then true
  else
    let value := ofDigits 10 significant
    if 0 ≤ exponent then overflowBound ≤ value * Nat.pow 10 exponent.toNat
    else overflowBound * Nat.pow 10 (-exponent).toNat ≤ value

/-- The exponent of a number: nothing, or a mark and a signed number. -/
def exponent? : List Char → Option Int
  | [] => some 0
  | mark :: rest =>
      if mark == 'e' || mark == 'E' then do
        let (negative, rest) := splitSign rest
        let magnitude := Int.ofNat (ofDigits 10 (← ungroup? 10 rest))
        return if negative then -magnitude else magnitude
      else none

/-- A token spells a number with a fraction or an exponent, or infinity, or no
number. Only what rounds to positive infinity is too large. -/
def isFloat (chars : List Char) : Bool :=
  let (negative, rest) := splitSign chars
  if rest == ['i', 'n', 'f'] || rest == ['n', 'a', 'n'] then true
  else
    let isWhole (char : Char) : Bool := isDigit char || char == '_'
    let whole := rest.takeWhile isWhole
    let rest := rest.dropWhile isWhole
    let parts : Option (List Char × List Char × Int) :=
      match rest with
      | [] => none
      | '.' :: rest => do
          let fraction ← ungroup? 10 (rest.takeWhile isWhole)
          return (← plainDigits? whole, fraction, ← exponent? (rest.dropWhile isWhole))
      | _ => do return (← plainDigits? whole, [], ← exponent? rest)
    match parts with
    | none => false
    | some (whole, fraction, exponent) =>
        negative || !overflows (whole ++ fraction) (exponent - fraction.length)

def takeNumber? (count : Nat) (chars : List Char) : Option (Nat × List Char) :=
  let digits := chars.take count
  if digits.length == count && digits.all isDigit then
    some (ofDigits 10 digits, chars.drop count)
  else none

def after? (char : Char) : List Char → Option (List Char)
  | first :: rest => if first == char then some rest else none
  | [] => none

def daysIn (year month : Nat) : Nat :=
  if month == 2 then
    if year % 4 == 0 && (year % 100 != 0 || year % 400 == 0) then 29 else 28
  else if month == 4 || month == 6 || month == 9 || month == 11 then 30
  else 31

def afterDate? (chars : List Char) : Option (List Char) := do
  let (year, chars) ← takeNumber? 4 chars
  let (month, chars) ← takeNumber? 2 (← after? '-' chars)
  let (day, chars) ← takeNumber? 2 (← after? '-' chars)
  if 1 ≤ month && month ≤ 12 && 1 ≤ day && day ≤ daysIn year month then some chars else none

def afterMinutes? (chars : List Char) : Option (List Char) := do
  let (hour, chars) ← takeNumber? 2 chars
  let (minute, chars) ← takeNumber? 2 (← after? ':' chars)
  if hour ≤ 23 && minute ≤ 59 then some chars else none

def afterTime? (chars : List Char) : Option (List Char) := do
  let chars ← afterMinutes? chars
  let (second, chars) ← takeNumber? 2 (← after? ':' chars)
  if second ≤ 60 then
    match chars with
    | '.' :: rest =>
        if (rest.takeWhile isDigit).isEmpty then none else some (rest.dropWhile isDigit)
    | _ => some chars
  else none

def isOffset (chars : List Char) : Bool :=
  match chars with
  | [] | ['Z'] | ['z'] => true
  | '+' :: rest | '-' :: rest => afterMinutes? rest == some []
  | _ => false

/-- The text is a time of day, with an offset or without. -/
def isTimeAndOffset (chars : List Char) : Bool := (afterTime? chars).any isOffset

def isDate (chars : List Char) : Bool := afterDate? chars == some []

/-- The text is a moment: a time of day, a date, or a date and a time. -/
def isMoment (chars : List Char) : Bool :=
  afterTime? chars == some [] ||
    match afterDate? chars with
    | none => false
    | some [] => true
    | some ('T' :: rest) | some ('t' :: rest) => isTimeAndOffset rest
    | some _ => false

def isTokenChar (char : Char) : Bool :=
  isDigit char || 'a' ≤ char && char ≤ 'z' || 'A' ≤ char && char ≤ 'Z' || char == '_' ||
    char == '+' || char == '-' || char == '.' || char == ':'

def scalar? (token : List Char) : Option Value :=
  if token == "true".toList then some (.truth true)
  else if token == "false".toList then some (.truth false)
  else
    match integer? token with
    | some value => some (.integer value)
    | none =>
        if isFloat token then some .float else if isMoment token then some .moment else none

end CipherModes.Toml
