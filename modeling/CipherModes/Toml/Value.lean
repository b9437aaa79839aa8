/-!
# TOML values and tables

A document is a table of values. Tables remember how they came about, because
that decides what may be added to them later: one written as a value is closed,
one that a header only passed through may still get its own header, and one
made by dotted keys may only be added to by dotted keys.
-/

set_option autoImplicit false

namespace CipherModes.Toml

/-- How a table came about. -/
inductive Origin
  /-- Written between braces. -/
  | written
  /-- Named by a header, or the document itself. -/
  | header
  /-- On the way to a table that a header names. -/
  | passed
  /-- On the way of a dotted key. -/
  | dotted
  deriving DecidableEq, Repr

/-- A value. Numbers with a fraction and moments in time are told apart from
all else, but what they stand for is not kept. -/
inductive Value
  | text (text : String)
  | integer (value : Int)
  | truth (value : Bool)
  | float
  | moment
  | array (items : List Value)
  | table (origin : Origin) (entries : List (String × Value))
  /-- The tables of one header that was written several times. -/
  | tables (elements : List (List (String × Value)))
  deriving Repr

/-- The entries of a table, in the order in which they were added. -/
abbrev Entries := List (String × Value)

namespace Entries

def get? (entries : Entries) (key : String) : Option Value :=
  (entries.find? (·.1 == key)).map (·.2)

def set (entries : Entries) (key : String) (value : Value) : Entries :=
  if (entries.get? key).isSome then
    entries.map fun entry => if entry.1 == key then (key, value) else entry
  else entries ++ [(key, value)]

/-- Who walks along a path: a header or a dotted key. -/
inductive Walker
  | header
  | dotted
  deriving DecidableEq, Repr

/-- The tables that a walker makes on its way. -/
def Walker.origin : Walker → Origin
  | .header => .passed
  | .dotted => .dotted

def Walker.passes : Walker → Origin → Bool
  | _, .written => false
  | .dotted, .header => false
  | _, _ => true

/-- Changes the table at the end of a path, which is made if it is not there.
The change is told how that table came about. -/
def alter (walker : Walker) (change : Origin → Entries → Option Entries) :
    (path : List String) → Origin → Entries → Option Entries
  | [], origin, entries => change origin entries
  | key :: path, _, entries =>
      match entries.get? key with
      | none => do
          let inner ← alter walker change path walker.origin []
          return entries.set key (.table walker.origin inner)
      | some (.table origin inner) =>
          if walker.passes origin then do
            let inner ← alter walker change path origin inner
            return entries.set key (.table origin inner)
          else none
      | some (.tables elements) => do
          let last ← elements.getLast?
          let last ← alter walker change path .header last
          return entries.set key (.tables (elements.dropLast ++ [last]))
      | some _ => none

/-- Adds a key that is not there yet; dotted keys add to dotted tables only, and
plain keys to all others. -/
def addPair (entries : Entries) (path : List String) (key : String) (value : Value) :
    Option Entries :=
  alter .dotted
    (fun origin entries =>
      if (origin == .dotted) == path.isEmpty then none
      else if (entries.get? key).isSome then none
      else some (entries ++ [(key, value)]))
    path .header entries

/-- Opens the table of a header: a new one, or one that headers have only
passed through. -/
def openTable (entries : Entries) (path : List String) (key : String) : Option Entries :=
  alter .header
    (fun _ entries =>
      match entries.get? key with
      | none => some (entries ++ [(key, .table .header [])])
      | some (.table .passed inner) => some (entries.set key (.table .header inner))
      | some _ => none)
    path .header entries

/-- Opens one more table of a header that may be written several times. -/
def openElement (entries : Entries) (path : List String) (key : String) : Option Entries :=
  alter .header
    (fun _ entries =>
      match entries.get? key with
      | none => some (entries ++ [(key, .tables [[]])])
      | some (.tables elements) => some (entries.set key (.tables (elements ++ [[]])))
      | some _ => none)
    path .header entries

end Entries

inductive Statement
  /-- A value under a dotted key: the way to its table, and its key there. -/
  | pair (path : List String) (key : String) (value : Value)
  | header (path : List String) (key : String)
  /-- The header of one more table of several. -/
  | element (path : List String) (key : String)
  deriving Repr

/-- What has been read: the document, and the table that pairs are added to. -/
structure Outline where
  root : Entries := []
  current : List String := []

namespace Outline

def add (outline : Outline) : Statement → Option Outline
  | .pair path key value => do
      let root ← outline.root.alter .header (fun _ entries => entries.addPair path key value)
        outline.current .header
      return { outline with root }
  | .header path key => do
      return { root := ← outline.root.openTable path key, current := path ++ [key] }
  | .element path key => do
      return { root := ← outline.root.openElement path key, current := path ++ [key] }

end Outline

def Entries.ofStatements? (statements : List Statement) : Option Entries := do
  let outline ← statements.foldlM Outline.add {}
  return outline.root

def Entries.ofPairs? (pairs : List (List String × String × Value)) : Option Entries :=
  pairs.foldlM (fun entries (path, key, value) => entries.addPair path key value) []

end CipherModes.Toml
