/-
Text for plain output, without terminal control.  Escape sequences are taken out,
and of the control characters only white space stays.
-/
import BmakeHighlight.Text

namespace BmakeHighlight

/-- How far a text has gone into an escape sequence: not at all; behind the escape, its
intermediate characters or the parameters of a control sequence; behind the introducer, the
parameters or the intermediate characters of a device control string; inside a title, which
a bell may end, or inside any other string. -/
inductive ControlState where
  | ground
  | escape
  | intermediate
  | parameters
  | deviceStart
  | deviceParameters
  | deviceIntermediate
  | title
  | string
deriving DecidableEq, Repr

/-- A control character that moves on instead of doing something to the terminal. -/
def isLayoutControl (c : Char) : Bool :=
  c == '\t' || c == '\n' || c == '\x0c' || c == '\r'

/-- A character that stays outside of escape sequences. -/
def isShown (c : Char) : Bool :=
  isLayoutControl c || (decide (' ' ≤ c) && c != '\x7f')

/-- Is the byte that ends a control string among the bytes of the character? -/
def endsString (c : Char) : Bool :=
  (String.utf8EncodeChar c).contains 0x9C

/-- The state that a printing ASCII character behind an escape leads to. -/
def ControlState.ofIntroducer (c : Char) : ControlState :=
  if c < '0' then .intermediate
  else if c = '[' then .parameters
  else if c = ']' then .title
  else if c = 'P' then .deviceStart
  else if c = 'X' ∨ c = '^' ∨ c = '_' then .string
  else .ground

/-- The state behind a printing ASCII character. -/
def ControlState.print (s : ControlState) (c : Char) : ControlState :=
  match s with
  | .escape => .ofIntroducer c
  | .intermediate => if c < '0' then .intermediate else .ground
  | .parameters => if c < '@' then .parameters else .ground
  | .deviceStart =>
      if c < '0' then .deviceIntermediate else if c < '@' then .deviceParameters else .string
  | .deviceParameters =>
      if c < '0' then .deviceIntermediate else if c < '<' then .deviceParameters else .string
  | .deviceIntermediate => if c < '0' then .deviceIntermediate else .string
  | .ground | .title | .string => s

/-- The state behind a character that does not stay. -/
def ControlState.skip (s : ControlState) (c : Char) : ControlState :=
  if c = '\x1b' then .escape
  else if c = '\x18' ∨ c = '\x1a' then .ground
  else if c < ' ' ∨ c = '\x7f' then if s = .title ∧ c = '\x07' then .ground else s
  else if c < '\x7f' then s.print c
  else if s = .string ∧ endsString c then .ground
  else s

/-- Does a character stay that is met in this state?  A string keeps back white space,
other sequences let it through. -/
def ControlState.shows (s : ControlState) (c : Char) : Bool :=
  match s with
  | .ground => isShown c
  | .escape | .intermediate | .parameters => isLayoutControl c
  | _ => false

/-- The characters that stay, behind a state.  White space puts a sequence off: with
`showing`, text stays as outside of it, until a control character takes the sequence up
again or a character outside ASCII ends it. -/
def ControlState.strip (s : ControlState) (showing : Bool) : Text → Text
  | [] => []
  | c :: t =>
      if (if showing then isShown c else s.shows c) then
        c :: ControlState.strip (if c < '\x7f' then s else .ground) true t
      else ControlState.strip (s.skip c) false t

/-- The text without terminal control. -/
def Text.unstyled (t : Text) : Text :=
  ControlState.strip .ground false t

end BmakeHighlight
