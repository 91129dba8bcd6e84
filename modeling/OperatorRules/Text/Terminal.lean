/-!
# Texts for terminals

What is left of a text for a terminal where it goes to a file instead: the characters that a reader
sees, and the control characters that only move on. A control sequence is left out as a whole. It
begins with an escape character and ends as its second character tells; a new escape character cuts
it short, and so does a cancelling one. Characters beyond ASCII are no part of a sequence: they are
passed over where one is still open.
-/

namespace OperatorRules.Text

/-- Where a reader of a text for a terminal stands. -/
inductive TerminalState where
  /-- Outside of control sequences. -/
  | ground
  /-- Behind an escape character. -/
  | escape
  /-- Behind an escape character and signs; a final character is to come. -/
  | escapeSigns
  /-- In parameters; a final character is to come. -/
  | parameters
  /-- In a string that a bell ends. -/
  | command
  /-- At the start of what comes before a string. -/
  | header
  /-- In parameters before a string. -/
  | headerParameters
  /-- In signs before a string. -/
  | headerSigns
  /-- In a string that a string terminator ends. -/
  | string
  deriving DecidableEq, Repr

namespace TerminalState

/-- The control characters that only move on: tab, line feed, form feed, carriage return. -/
def isMove (c : Char) : Bool := c = '\t' || c = '\n' || c = '\x0c' || c = '\r'

def isControl (c : Char) : Bool := c < ' ' || c = '\x7f'

/-- Whether a character ends a string. The terminator is a single byte, and it is taken for one also
inside of a longer character. -/
def endsString (c : Char) : Bool := (String.utf8EncodeChar c).contains 0x9c

/-- The state behind the second character of a control sequence. -/
def ofSecond (c : Char) : TerminalState :=
  if c < '0' then escapeSigns
  else if c = '[' then parameters
  else if c = ']' then command
  else if c = 'P' then header
  else if c = 'X' || c = '^' || c = '_' then string
  else ground

/-- The state behind a visible character of ASCII. -/
def next (s : TerminalState) (c : Char) : TerminalState :=
  match s with
  | escape => ofSecond c
  | escapeSigns => if c < '0' then escapeSigns else ground
  | parameters => if c < '@' then parameters else ground
  | header => if c < '0' then headerSigns else if c < '@' then headerParameters else string
  | headerParameters =>
    if c < '0' then headerSigns else if c < '<' then headerParameters else string
  | headerSigns => if c < '0' then headerSigns else string
  | ground | command | string => s

/-- Whether a control character that only moves on is left; it then ends an open sequence. -/
def yields : TerminalState → Bool
  | ground | escape | escapeSigns | parameters => true
  | _ => false

/-- Reads a character: the state behind it, and whether it is left. -/
def read (s : TerminalState) (c : Char) : TerminalState × Bool :=
  if c = '\x1b' then (escape, false)
  else if c = '\x18' || c = '\x1a' then (ground, false)
  else if isMove c && s.yields then (ground, true)
  else if s = ground then (ground, !isControl c)
  else if s = command && c = '\x07' then (ground, false)
  else if s = string && endsString c then (ground, false)
  else if isControl c || '\x7f' < c then (s, false)
  else (s.next c, false)

/-- What is left of a text from a state on. -/
def visible (s : TerminalState) : List Char → List Char
  | [] => []
  | c :: cs =>
    let (next, left) := s.read c
    if left then c :: next.visible cs else next.visible cs

end TerminalState

/-- The text without control sequences and without the control characters that do not move on. -/
def visible (s : String) : String := String.ofList (TerminalState.ground.visible s.toList)

end OperatorRules.Text
