/-!
# Events

What is reported while rules are registered and verified: a level, a message for most, and named
fields. How a line of a log looks is not fixed here.
-/

namespace OperatorRules

inductive Level where
  | debug
  | info
  | warn
  | error
  deriving DecidableEq, Repr

def Level.name : Level → String
  | debug => "DEBUG"
  | info => "INFO"
  | warn => "WARN"
  | error => "ERROR"

inductive FieldValue where
  | text (s : String)
  | count (n : Nat)
  deriving DecidableEq, Repr

/-- Something that happened, with the fields in the order they were given. -/
structure Event where
  level : Level
  message : Option String
  fields : List (String × FieldValue)
  deriving DecidableEq, Repr

end OperatorRules
