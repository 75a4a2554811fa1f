import WikiDirectives.Invocation
import WikiDirectives.Registry

/-! Expanding lines: each directive's line gives way to what its handler returns. -/
namespace WikiDirectives

/-- A line of an expanded page, and whether a handler made it. -/
structure Line where
  text : Text
  generated : Bool
  deriving DecidableEq, Repr

namespace Registry

/-- Runs the handler of a directive that stands in line `number`. -/
def dispatch (document : Document) (number : Nat) (invocation : Invocation) (handler : Handler)
    (session : Session) : Except LineFault (Option Line) × Session :=
  let args := invocation.arguments
  let script := handler.script args ⟨document.title, number⟩
  let (result, session) :=
    script.run document (session.note (.dispatched number invocation.name args.size))
  match result with
  | .ok (.line text) => (.ok (some ⟨text, true⟩), session)
  | .ok .remove => (.ok none, session)
  | .error cause => (.error ⟨number, invocation.name, cause⟩, session)

/-- Expands one line. A line without a directive that has an allowed handler stays as it is. -/
def expandLine (registry : Registry) (document : Document) (number : Nat) (text : Text)
    (session : Session) : Except LineFault (Option Line) × Session :=
  match Invocation.detect text with
  | none => (.ok (some ⟨text, false⟩), session)
  | some invocation => match registry.lookup? invocation.name with
    | some handler => dispatch document number invocation handler session
    | none =>
      let event := if registry.isAllowed invocation.name
        then Event.unhandled number invocation.name else Event.ignored number invocation.name
      (.ok (some ⟨text, false⟩), session.note event)

/-- Expands lines that are numbered from `number` on. The first fault ends the run; the session
that it leaves is kept. -/
def expandFrom (registry : Registry) (document : Document) :
    Nat → List Text → Session → Except LineFault (List Line) × Session
  | _, [], session => (.ok [], session)
  | number, text :: texts, session =>
    match registry.expandLine document number text session with
    | (.error fault, session) => (.error fault, session)
    | (.ok line?, session) => match registry.expandFrom document (number + 1) texts session with
      | (.error fault, session) => (.error fault, session)
      | (.ok lines, session) => (.ok (line?.toList ++ lines), session)

/-- Expands lines that are numbered from one. -/
def expand (registry : Registry) (document : Document) (texts : List Text) (session : Session) :
    Except LineFault (List Line) × Session :=
  registry.expandFrom document 1 texts session

end Registry

end WikiDirectives
