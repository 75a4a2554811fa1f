import WikiDirectives.Builtin

/-! The handlers that a page may use: a handler is run only if its name is also allowed. -/
namespace WikiDirectives

/-- Whether a text can be the name of a handler. -/
def isName (name : Text) : Bool := !name.isEmpty && name.all fun c => isAlphanumeric c || c == '_'

structure Registry where
  allowed : List Text
  handlers : Dict Handler := .empty

namespace Registry

/-- The names allowed when nothing else is said. -/
def usualNames : List Text := ["article_list".toList, "toc".toList, "wikilink".toList]

def usual : Registry := { allowed := usualNames }

def isAllowed (registry : Registry) (name : Text) : Bool := registry.allowed.contains name

/-- Adds a handler under its name, which must be a name and be free. Returns the registry as it is
afterwards, also if the handler is refused. -/
def register (registry : Registry) (handler : Handler) : Except Fault Unit × Registry :=
  if !isName handler.name then (.error (.invalidName handler.name), registry)
  else if registry.handlers.contains handler.name then
    (.error (.duplicateHandler handler.name), registry)
  else (.ok (), { registry with handlers := registry.handlers.insert handler.name handler })

/-- Adds handlers one after the other, up to the first that is refused. -/
def registerAll (registry : Registry) : List Handler → Except Fault Registry
  | [] => .ok registry
  | handler :: rest => match registry.register handler with
    | (.ok _, next) => next.registerAll rest
    | (.error fault, _) => .error fault

/-- Adds the built-in handlers, except where a name has a handler already. -/
def withBuiltins (registry : Registry) : Registry :=
  { registry with
    handlers := Builtin.all.foldl (fun handlers h => handlers.insertNew h.name h)
      registry.handlers }

/-- The handler to run for a name. -/
def lookup? (registry : Registry) (name : Text) : Option Handler :=
  if registry.isAllowed name then registry.handlers.get? name else none

/-- The handlers that pages may use, in name order, with their descriptions. -/
def documented (registry : Registry) : List (Text × Help) :=
  (registry.handlers.entries.filter fun (name, _) => registry.isAllowed name).map
    fun (name, handler) => (name, handler.help)

/-! ## A summary for debugging -/

/-- A hexadecimal numeral in small letters. -/
def hexadecimal (n : Nat) : Text := Nat.toDigits 16 n

/-- A character between quotation marks. Of those that cannot be printed only the ASCII ones are written
by their numbers here: the ones beyond ASCII, and the marks that extend the character before them, are
left as they are. -/
def quotedChar : Char → Text
  | '"' => "\\\"".toList
  | '\\' => "\\\\".toList
  | '\t' => "\\t".toList
  | '\n' => "\\n".toList
  | '\r' => "\\r".toList
  | '\x00' => "\\0".toList
  | c => if c.toNat < 0x20 ∨ c.toNat = 0x7F then "\\u\x7b".toList ++ hexadecimal c.toNat ++ ['\x7d']
    else [c]

def quotedName (name : Text) : Text := '"' :: name.flatMap quotedChar ++ ['"']

def quotedNames (names : List Text) : Text :=
  '[' :: Text.joined ", ".toList (names.map quotedName) ++ [']']

/-- The allowed names and the names with a handler, both in order and without repetition. -/
def summary (registry : Registry) : Text :=
  let allowed := (Dict.ofList (registry.allowed.map fun name => (name, ()))).names
  "MacroRegistry \x7b allowed: ".toList ++ quotedNames allowed ++ ", handlers: ".toList ++
    quotedNames registry.handlers.names ++ " \x7d".toList

end Registry

end WikiDirectives
