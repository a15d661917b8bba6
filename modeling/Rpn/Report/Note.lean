import Rpn.Validation
import Rpn.Cursor
/-!
Log records. A note holds the data of one record; its level, the part of the program it comes from
and its message are functions of that data.
-/
namespace Rpn

inductive Level where
  | trace | debug | info | warn
deriving DecidableEq, Repr

namespace Level

def rank : Level → Nat
  | trace => 0
  | debug => 1
  | info => 2
  | warn => 3

def name : Level → String
  | trace => "TRACE"
  | debug => "DEBUG"
  | info => "INFO"
  | warn => "WARN"

-- Names are written in a column of five characters.
def column (level : Level) : String :=
  level.name ++ String.ofList (List.replicate (5 - level.name.length) ' ')

end Level

inductive Origin where
  | scanner | parser | driver
deriving DecidableEq, Repr

def Origin.path : Origin → String
  | scanner => "yardc::scanner"
  | parser => "yardc::parser"
  | driver => "yard::driver"

def Mode.name : Mode → String
  | tolerant => "Tolerant"
  | strict => "Strict"

inductive Note where
  | token (token : Token)
  | skipping (c : Spanned Char)
  | negation (place : Span)
  | pop (op : Operator)
  | push (op : Operator)
  | unmatched (place : Span)
  | converting (text : List Char) (mode : Mode)
  | incomplete (name : String) (error : ShapeError)
  | converted (total : Nat) (name : String)
  | failed (failures total : Nat) (name : String)
deriving DecidableEq, Repr

namespace Note

def level : Note → Level
  | token _ | skipping _ | pop _ | push _ => .trace
  | negation _ | unmatched _ | converting _ _ => .debug
  | converted _ _ => .info
  | incomplete _ _ | failed _ _ _ => .warn

def origin : Note → Origin
  | token _ | skipping _ => .scanner
  | negation _ | pop _ | push _ | unmatched _ => .parser
  | converting _ _ | incomplete _ _ | converted _ _ | failed _ _ _ => .driver

def message : Note → String
  | token found => s!"token {found.value.describe} at {found.span.describe}"
  | skipping c => s!"skipping {Text.quotedChar c.value} at byte {c.span.lo}"
  | negation place => s!"unary minus at {place.describe}"
  | pop op => s!"pop {op.sign}"
  | push op => s!"push {op.sign}"
  | unmatched place => s!"unmatched ')' at {place.describe}"
  | converting text mode => s!"converting {Text.quoted text} ({mode.name})"
  | incomplete name error => s!"{name}: {error.message}"
  | converted total name => s!"converted {total} expressions from {name}"
  | failed failures total name =>
    s!"{failures} of {total} expressions in {name} could not be converted"

def line (note : Note) : String := s!"[{note.level.column}] {note.origin.path}: {note.message}"

end Note

end Rpn
