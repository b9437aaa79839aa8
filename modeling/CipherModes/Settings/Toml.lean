import CipherModes.Settings
import CipherModes.Toml.Document

/-!
# Settings as TOML

Settings are read from a TOML document and written as one. Keys that have no
meaning here are passed over, and absent ones keep their defaults. A group of
settings may be given as a table or as an array of its values in order.
-/

set_option autoImplicit false

namespace CipherModes

open Toml

inductive SettingsError
  | unreadable
  | malformed
  | unwritable
  /-- A token cannot work with a value. -/
  | invalid (cause : InvalidSetting)
  deriving DecidableEq, Repr

namespace Settings

namespace Key

def fipsMode : String := "fips_mode"

def disabledAlgorithms : String := "disabled_algorithms"

def openLatency : String := "open_latency_us"

def aes : String := "aes"

def blockLength : String := "block_length"

def keyLengths : String := "key_lengths"

def min : String := "min"

def max : String := "max"

def increment : String := "increment"

end Key

def readTruth : Value → Option Bool
  | .truth value => some value
  | _ => none

/-- A number below a bound and nothing else. -/
def readNumber (bound : Nat) : Value → Option Nat
  | .integer value => if 0 ≤ value ∧ value < bound then some value.toNat else none
  | _ => none

def readWord (value : Value) : Option UInt32 := (readNumber 0x100000000 value).map UInt32.ofNat

def readLongWord (value : Value) : Option UInt64 :=
  (readNumber 0x10000000000000000 value).map UInt64.ofNat

def readString : Value → Option String
  | .text text => some text
  | _ => none

def readStrings : Value → Option (List String)
  | .array items => items.mapM readString
  | _ => none

def readOptional {α : Type} (read : Value → Option α) (absent : α) : Option Value → Option α
  | none => some absent
  | some value => read value

/-- The values of a group: those of given keys in a table, or those of an array
in order. A moment counts as a table without known keys. -/
def readGroup (keys : List String) : Value → Option (List (Option Value))
  | .table _ entries => some (keys.map (Entries.get? entries))
  | .array items => some ((List.range keys.length).map fun place => items[place]?)
  | .moment => some (keys.map fun _ => none)
  | _ => none

/-- A table of key lengths, of which no part may be absent. -/
def readKeyLengths (value : Value) : Option KeyLengths := do
  match ← readGroup [Key.min, Key.max, Key.increment] value with
  | [some min, some max, some increment] =>
      return { min := ← readWord min, max := ← readWord max, increment := ← readWord increment }
  | _ => none

def readAes (settings : Settings) (value : Value) : Option Settings := do
  match ← readGroup [Key.blockLength, Key.keyLengths] value with
  | [blockLength, keyLengths] =>
      return { settings with
        blockLength := ← readOptional readWord settings.blockLength blockLength
        keyLengths := ← readOptional readKeyLengths settings.keyLengths keyLengths }
  | _ => none

def ofEntries? (entries : Entries) : Option Settings := do
  let settings : Settings :=
    { fipsMode := ← readOptional readTruth false (entries.get? Key.fipsMode)
      disabledAlgorithms := ← readOptional readStrings [] (entries.get? Key.disabledAlgorithms)
      openLatency := ← readOptional readLongWord 0 (entries.get? Key.openLatency) }
  readOptional (readAes settings) settings (entries.get? Key.aes)

def ofToml (text : String) : Except SettingsError Settings :=
  ((readDocument? text.toList).bind ofEntries?).elim (.error .malformed) .ok

/-- The settings of a file with given contents, if there is one. -/
def ofFile (contents : Option Bytes) : Except SettingsError Settings :=
  match contents.bind fun bytes => String.fromUTF8? ⟨bytes.toArray⟩ with
  | none => .error .unreadable
  | some text => ofToml text

def writeLine (key : String) (value : List Char) : List Char :=
  key.toList ++ [' ', '=', ' '] ++ value ++ ['\n']

/-- The header of a table, after an empty line. -/
def writeHeader (path : List String) : List Char :=
  '\n' :: '[' :: (String.intercalate "." path).toList ++ [']', '\n']

def writeTruth (value : Bool) : List Char := (toString value).toList

def writeNumber (value : Nat) : List Char := Nat.toDigits 10 value

/-- An array of texts: one of two or more has a line for each. -/
def writeStrings (texts : List String) : List Char :=
  match texts with
  | [] => ['[', ']']
  | [text] => '[' :: writeText text.toList ++ [']']
  | texts =>
      '[' :: '\n' ::
        (texts.flatMap fun text => "    ".toList ++ writeText text.toList ++ [',', '\n']) ++ [']']

def write (settings : Settings) : List Char :=
  writeLine Key.fipsMode (writeTruth settings.fipsMode) ++
    writeLine Key.disabledAlgorithms (writeStrings settings.disabledAlgorithms) ++
    writeLine Key.openLatency (writeNumber settings.openLatency.toNat) ++
    writeHeader [Key.aes] ++
    writeLine Key.blockLength (writeNumber settings.blockLength.toNat) ++
    writeHeader [Key.aes, Key.keyLengths] ++
    writeLine Key.min (writeNumber settings.keyLengths.min.toNat) ++
    writeLine Key.max (writeNumber settings.keyLengths.max.toNat) ++
    writeLine Key.increment (writeNumber settings.keyLengths.increment.toNat)

/-- The document of settings, whose numbers must be integers of TOML. -/
def toToml (settings : Settings) : Except SettingsError String :=
  if settings.openLatency.toNat < 0x8000000000000000 then .ok (String.ofList settings.write)
  else .error .unwritable

end Settings

end CipherModes
