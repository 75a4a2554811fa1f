import WikiDirectives.CommandLine.Log
import WikiDirectives.Text.Numeral

/-! Which log records are shown.

A filter is written as rules between commas. A rule is a level, or the start of a source, or both
with an equals sign between them. Brackets after the source hold the name of a span, and braces in
them a field with perhaps a value. Of the rules that concern a record the most specific one decides.
-/
namespace WikiDirectives.CommandLine

/-- Why a text is no rule. -/
inductive RuleError where
  | malformed
  | unknownLevel
  deriving DecidableEq, Repr

def RuleError.message : RuleError → Text
  | malformed => "invalid filter directive".toList
  | unknownLevel =>
    ("error parsing level filter: expected one of \"off\", \"error\", \"warn\", \"info\", " ++
      "\"debug\", \"trace\", or a number 0-5").toList

/-- A rule: the records it concerns, and the rank up to which it shows them. -/
structure FilterRule where
  source : Option Text := none
  field : Option Text := none
  /-- It asks for a span or for the value of a field, and no record answers to that. -/
  unmet : Bool := false
  rank : Nat
  deriving DecidableEq, Repr

/-- The rank of a level given by its number or name, in capitals or not. -/
def levelRank? (s : Text) : Option Nat :=
  match Numeral.natural Level.trace.rank s with
  | .ok rank => some rank
  | .error _ =>
    let name := s.map Char.toLower
    if name = "off".toList then some 0
    else ([Level.error, .warn, .info, .debug, .trace].find? fun level =>
      level.text.map Char.toLower = name).map Level.rank

namespace FilterRule

/-- The rank after the equals sign of a rule. Without a level everything is shown. -/
def rankOf (s : Text) : Except RuleError Nat :=
  if s.isEmpty then .ok Level.trace.rank
  else match levelRank? s with
    | some rank => .ok rank
    | none => .error .unknownLevel

/-- The rank of a rule that has been read up to a place. -/
def rankFrom (written marks : Text) (place : Nat) : Except RuleError Nat :=
  match marks.drop place with
  | [] => .ok Level.trace.rank
  | '=' :: _ => rankOf (written.drop (place + 1))
  | _ => .error .malformed

/-- A rule with brackets, read up to the opening one. -/
def bracketed (written marks : Text) (source : Option Text) (start : Nat) :
    Except RuleError FilterRule :=
  let nameEnd := start + ((marks.drop start).takeWhile fun c => c ≠ ']' && c ≠ '\x7b').length
  match marks.drop nameEnd with
  | ']' :: _ => do
    let rank ← rankFrom written marks (nameEnd + 1)
    return { source, unmet := true, rank }
  | '\x7b' :: inner =>
    let fieldEnd := nameEnd + 1 + (inner.takeWhile (· ≠ '\x7d')).length
    let span := (written.take nameEnd).drop start
    let field := (written.take fieldEnd).drop (nameEnd + 1)
    match marks.drop fieldEnd with
    | '\x7d' :: ']' :: _ =>
      if field.isEmpty then .error .malformed else do
      let rank ← rankFrom written marks (fieldEnd + 2)
      return { source, field := some (field.takeWhile (· ≠ '='))
               unmet := !span.isEmpty || field.contains '=', rank }
    | _ => .error .malformed
  | _ => .error .malformed

/-- Reads a rule. Its marks are looked for without the blanks around it, but its parts are taken
from the text as it is written, at the places where the marks were found. -/
def read (written : Text) : Except RuleError FilterRule :=
  let marks := Text.trim written
  match marks with
  | [] => .error .malformed
  | '[' :: _ => bracketed written marks none 1
  | c :: _ =>
    if !(isAlphanumeric c || c = '-' || c = ':' || c = '_') then .error .malformed else
    let place := (marks.takeWhile fun c => c ≠ '=' && c ≠ '[').length
    match marks.drop place with
    | [] => match levelRank? written with
      | some rank => .ok { rank }
      | none => .ok { source := some written, rank := Level.trace.rank }
    | '=' :: _ => do
      let rank ← rankOf (written.drop (place + 1))
      return { source := some (written.take place), rank }
    | _ => bracketed written marks (some (written.take place)) (place + 1)

/-- Whether a rule says something about a record. Its source need only start like the rule's. -/
def concerns (rule : FilterRule) (record : Record) : Bool :=
  !rule.unmet &&
  (match rule.source with
    | none => true
    | some source => source.isPrefixOf record.source) &&
  (match rule.field with
    | none => true
    | some field => field = "message".toList || record.fields.any fun entry => entry.1 = field)

/-- How much of a source a rule asks for. -/
def reach (rule : FilterRule) : Nat :=
  match rule.source with
  | none => 0
  | some source => source.length + 1

def fieldBefore : Option Text → Option Text → Bool
  | none, some _ => true
  | some a, some b => Text.before a b
  | _, none => false

/-- Whether a rule gives way to another: first the source counts, then the field. -/
def givesWay (a b : FilterRule) : Bool :=
  a.reach < b.reach || (a.reach = b.reach && fieldBefore a.field b.field)

end FilterRule

/-- The rules of a filter, in the order in which they are written. -/
abbrev LogFilter := List FilterRule

namespace LogFilter

def levelVariable : Text := "RUST_LOG".toList

/-- The texts between commas, empty ones left out. -/
def written (s : Text) : List Text := (Text.pieces ',' s).filter (!·.isEmpty)

/-- The rules that can be read; without any, errors are shown. -/
def ofText (s : Text) : LogFilter :=
  match (written s).filterMap fun rule => (FilterRule.read rule).toOption with
  | [] => [{ rank := Level.error.rank }]
  | rules => rules

/-- A complaint about each text that is no rule. -/
def complaints (s : Text) : List Text :=
  (written s).filterMap fun rule => match FilterRule.read rule with
    | .ok _ => none
    | .error error => some ("ignoring `".toList ++ rule ++ "`: ".toList ++ error.message)

/-- The most specific rule for a record. Of equally specific ones the last counts. -/
def decisive? (filter : LogFilter) (record : Record) : Option FilterRule :=
  (filter.filter (·.concerns record)).foldl (fun best? rule => match best? with
    | none => some rule
    | some best => if rule.givesWay best then some best else some rule) none

def shows (filter : LogFilter) (record : Record) : Bool :=
  match filter.decisive? record with
  | none => false
  | some rule => record.level.rank ≤ rule.rank

/-- The records that are shown, as lines. -/
def lines (filter : LogFilter) (records : List Record) : List Text :=
  (records.filter filter.shows).map Record.text

/-- What the surroundings ask to be shown. -/
def setting (environment : Dict Text) : Text := (environment.get? levelVariable).getD []

/-- The filter when more is asked for on the command line. -/
def verbose : LogFilter := [{ rank := Level.debug.rank }]

end LogFilter

end WikiDirectives.CommandLine
