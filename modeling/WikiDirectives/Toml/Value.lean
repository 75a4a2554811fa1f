import WikiDirectives.Text.Basic

/-! TOML values, and how keys and headers build tables out of them. -/
namespace WikiDirectives.Toml

/-- How a table came to be, which decides what may still be added to it. -/
inductive Origin where
  /-- By a header of its own. -/
  | header
  /-- On the way of another table's header. -/
  | implied
  /-- On the way of a dotted key. -/
  | dotted
  /-- Between braces. -/
  | inline
  deriving DecidableEq, Repr

/-- A value. A number may be written in the right form and still be beyond all bounds: such a number
stands in a document unnoticed until it is read. Of numbers with a fraction or exponent only that is
kept, and of moments in time nothing. -/
inductive Value where
  | text (content : Text)
  | integer (number? : Option Int)
  | float (bounded : Bool)
  | boolean (value : Bool)
  | moment
  | array (items : List Value)
  | tables (rows : List (List (Text × Value)))
  | table (origin : Origin) (entries : List (Text × Value))

instance : Inhabited Value := ⟨.moment⟩

namespace Value

mutual

/-- Whether all numbers in a value are within their bounds. -/
def isReadable : Value → Bool
  | .text _ | .boolean _ | .moment => true
  | .integer number? => number?.isSome
  | .float bounded => bounded
  | .array items => areReadable items
  | .tables rows => rowsReadable rows
  | .table _ entries => entriesReadable entries

def areReadable : List Value → Bool
  | [] => true
  | item :: items => item.isReadable && areReadable items

def rowsReadable : List (List (Text × Value)) → Bool
  | [] => true
  | row :: rows => entriesReadable row && rowsReadable rows

def entriesReadable : List (Text × Value) → Bool
  | [] => true
  | entry :: entries => entryReadable entry && entriesReadable entries

def entryReadable : Text × Value → Bool
  | (_, value) => value.isReadable

end

end Value

/-- The keys of a table with their values, each key once. -/
abbrev Entries := List (Text × Value)

namespace Entries

def get? (entries : Entries) (key : Text) : Option Value :=
  (entries.find? fun entry => entry.1 = key).map (·.2)

def set (entries : Entries) (key : Text) (value : Value) : Entries :=
  (key, value) :: entries.filter fun entry => entry.1 ≠ key

/-- Whether a path may lead through a table: never through one between braces, and a dotted key
not through one with a header of its own. -/
def passable (byDots : Bool) : Origin → Bool
  | .header => !byDots
  | .implied | .dotted => true
  | .inline => false

/-- What a table becomes when a path leads through it: one that only headers implied is from then on
the work of dotted keys. -/
def passed (byDots : Bool) : Origin → Origin
  | .implied => if byDots then .dotted else .implied
  | origin => origin

/-- Changes the table that a path leads to. Missing tables on the way are made; of an array of
tables the last one is meant. -/
def descend (byDots : Bool) (change : Origin → Entries → Option Entries) :
    List Text → Origin → Entries → Option Entries
  | [], origin, entries => change origin entries
  | key :: path, _, entries => match entries.get? key with
    | none =>
      let origin := if byDots then .dotted else .implied
      (descend byDots change path origin []).map fun sub => entries.set key (.table origin sub)
    | some (.table origin sub) =>
      let after := passed byDots origin
      if passable byDots origin then
        (descend byDots change path after sub).map fun sub => entries.set key (.table after sub)
      else none
    | some (.tables rows) => match rows.getLast? with
      | none => none
      | some row => (descend byDots change path .header row).map fun row =>
          entries.set key (.tables (rows.dropLast ++ [row]))
    | some _ => none

/-- Gives a new key its value. -/
def add (entries : Entries) (key : Text) (value : Value) : Option Entries :=
  match entries.get? key with
  | none => some (entries.set key value)
  | some _ => none

/-- Gives a dotted key its value. The table it leads to must be one made by dotted keys. -/
def addDotted (entries : Entries) (key : List Text) (value : Value) : Option Entries :=
  match key.getLast? with
  | none => none
  | some last =>
    let path := key.dropLast
    descend true (fun origin sub =>
      if path.isEmpty || origin = .dotted then sub.add last value else none) path .header entries

/-- Opens the table of a header. A table that only other headers implied gets its own header. -/
def openTable (entries : Entries) (header : List Text) : Option Entries :=
  match header.getLast? with
  | none => none
  | some last => descend false (fun _ sub => match sub.get? last with
      | none => some (sub.set last (.table .header []))
      | some (.table .implied inner) => some (sub.set last (.table .header inner))
      | some _ => none) header.dropLast .header entries

/-- Opens a further table in the array of a header. -/
def openRow (entries : Entries) (header : List Text) : Option Entries :=
  match header.getLast? with
  | none => none
  | some last => descend false (fun _ sub => match sub.get? last with
      | none => some (sub.set last (.tables [[]]))
      | some (.tables rows) => some (sub.set last (.tables (rows ++ [[]])))
      | some _ => none) header.dropLast .header entries

/-- Gives a dotted key its value in the table of a header. -/
def addBelow (entries : Entries) (header key : List Text) (value : Value) : Option Entries :=
  descend false (fun _ sub => sub.addDotted key value) header .header entries

end Entries

end WikiDirectives.Toml
