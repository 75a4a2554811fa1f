import WikiDirectives.Arguments.Basic
import WikiDirectives.Article
import WikiDirectives.Stash

/-! Handlers: what is run for a directive. A handler asks for what it needs one request at a time,
so that what it asked of the document and put into the stash is seen from outside. -/
namespace WikiDirectives

/-- What stands in place of a directive's line: another line, or nothing. -/
inductive Output where
  | line (text : Text)
  | remove
  deriving DecidableEq, Repr

/-- The description of a handler for the readers of its wiki. -/
structure Help where
  short : Text
  long : Text
  sample : Text
  args : Dict Text := .empty

def Help.withArg (help : Help) (name description : Text) : Help :=
  { help with args := help.args.insert name description }

/-- Where a directive stands: the title of its document and the number of its line. -/
structure Place where
  title : Text
  line : Nat
  deriving DecidableEq, Repr

/-- The steps of a handler: requests, each with what is done with the answer, and a result. -/
inductive Script where
  | done (result : Except Fault Output)
  /-- Asks the document for its articles down to a depth. -/
  | children (depth : Nat) (next : List Article → Script)
  /-- Puts a content into the stash and gets its token. -/
  | put (content : Text) (next : Text → Script)
  /-- Looks up a token in the stash. -/
  | resolve (token : Text) (next : Option Text → Script)

namespace Script

def line (text : Text) : Script := .done (.ok (.line text))
def remove : Script := .done (.ok .remove)
def fail (fault : Fault) : Script := .done (.error fault)

/-- Goes on with a value, or ends with the fault that stands in its place. -/
def check {α : Type} (value : Except Fault α) (next : α → Script) : Script :=
  match value with
  | .ok a => next a
  | .error fault => fail fault

end Script

/-- A handler with the name of its directive. -/
structure Handler where
  name : Text
  help : Help
  script : Arguments → Place → Script

/-- What can be observed of a run besides its output. -/
inductive Event where
  | ignored (line : Nat) (name : Text)
  | unhandled (line : Nat) (name : Text)
  | dispatched (line : Nat) (name : Text) (arguments : Nat)
  | asked (depth : Nat)
  deriving DecidableEq, Repr

/-- The state of a run: the stash, and the events so far, oldest first. -/
structure Session where
  stash : Stash := {}
  events : List Event := []
  deriving DecidableEq, Repr

namespace Session

def note (session : Session) (event : Event) : Session :=
  { session with events := session.events ++ [event] }

/-- The depths asked of the document, oldest first. -/
def depths (session : Session) : List Nat :=
  session.events.filterMap fun
    | .asked depth => some depth
    | _ => none

end Session

/-- Runs a script against a document. What it put into the stash stays there if it fails. -/
def Script.run (document : Document) : Script → Session → Except Fault Output × Session
  | done result, session => (result, session)
  | children depth next, session =>
    (next (document.children depth)).run document (session.note (.asked depth))
  | put content next, session =>
    (next session.stash.nextToken).run document
      { session with stash := session.stash.put content }
  | resolve token next, session => (next (session.stash.resolve? token)).run document session

end WikiDirectives
