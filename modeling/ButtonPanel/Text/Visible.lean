/-
  ButtonPanel.Text.Visible — what is left of a text that was made for a terminal when the
  control sequences and the control characters in it are taken out.

  A sequence starts with an escape. What follows says of which kind it is: a short one
  ends at once, a control sequence at its first letter, a command at a bell, and the
  strings only at another escape or at the byte that ends a string. Tabs, line ends and form
  feeds are no control characters here: they are left, also within a sequence of the first two
  kinds, and so is all that comes after one of them up to the next control character, where
  the sequence is taken up again.
-/

namespace ButtonPanel.Visible

inductive Sequence
  /-- No sequence is open. -/
  | closed
  | escape
  | intermediate
  | control
  | deviceEntry
  | deviceParameter
  | deviceIntermediate
  | string
  | command
  deriving DecidableEq, Repr

def stringEnd : UInt8 := 0x9C

/-- A tab, a line feed, a form feed or a carriage return. -/
def isLayout (c : Char) : Bool := c = '\t' || c = '\n' || c = '\x0c' || c = '\r'

def isShown (c : Char) : Bool := if c < ' ' then isLayout c else c ≠ '\x7f'

def within (lo hi c : Char) : Bool := lo ≤ c && c ≤ hi

namespace Sequence

/-- Whether a character is left in a state. -/
def shows : Sequence → Char → Bool
  | closed, c => isShown c
  | escape, c | intermediate, c | control, c => isLayout c
  | _, _ => false

/-- The state after a character that is not left. An escape starts anew, and two control
    characters close what is open. -/
def after (s : Sequence) (c : Char) : Sequence :=
  if c = '\x1b' then escape
  else if c = '\x18' ∨ c = '\x1a' then closed
  else match s with
    | closed => closed
    | escape =>
      if within ' ' '/' c then intermediate
      else if c = '[' then control
      else if c = ']' then command
      else if c = 'P' then deviceEntry
      else if c = 'X' ∨ c = '^' ∨ c = '_' then string
      else if within '0' '~' c then closed
      else escape
    | intermediate => if within '0' '~' c then closed else intermediate
    | control => if within '@' '~' c then closed else control
    | deviceEntry =>
      if within ' ' '/' c then deviceIntermediate
      else if within '0' '?' c then deviceParameter
      else if within '@' '~' c then string
      else deviceEntry
    | deviceParameter =>
      if within ' ' '/' c then deviceIntermediate
      else if within '<' '~' c then string
      else deviceParameter
    | deviceIntermediate => if within '0' '~' c then string else deviceIntermediate
    | string => if (String.utf8EncodeChar c).contains stringEnd then closed else string
    | command => if c = '\x07' then closed else command

end Sequence

/-- What is left of a text, from a state on. In a run of characters that are left, `shown`, the
    state waits; a character beyond ASCII closes it. -/
def strip (s : Sequence) (shown : Bool) : List Char → List Char
  | [] => []
  | c :: rest =>
    if (if shown then isShown c else s.shows c) then
      c :: strip (if c.toNat < 0x80 then s else .closed) true rest
    else strip (s.after c) false rest

def text (s : String) : String := String.ofList (strip .closed false s.toList)

end ButtonPanel.Visible
