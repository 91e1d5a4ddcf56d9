namespace TopicConsumer

namespace TerminalText

/-- Where a text stands between two characters: plain, or inside a control sequence. -/
inductive Mode where
  | plain
  | escape
  | escapeTail
  | command
  | device
  | deviceNumbers
  | deviceTail
  | data
  | title
deriving DecidableEq, Repr

def isGap (c : Char) : Bool := [' ', '\t', '\n', '\x0c', '\r'].contains c

/-- Whether the encoding of a character holds the byte that ends data. -/
def holdsEnd (c : Char) : Bool := (String.ofList [c]).toUTF8.toList.contains 0x9c

namespace Mode

/-- Whether a gap breaks a sequence off. -/
def isBroken (mode : Mode) : Bool := [escape, escapeTail, command].contains mode

def afterControl (mode : Mode) (c : Char) : Mode :=
  if c = '\x18' ∨ c = '\x1a' then plain
  else if isGap c ∧ mode.isBroken then plain
  else if c = '\x07' ∧ mode = title then plain
  else mode

def afterWide (mode : Mode) (c : Char) : Mode :=
  if mode = data ∧ holdsEnd c then plain else mode

def afterPrintable (mode : Mode) (c : Char) : Mode :=
  let inside (first last : Char) : Bool := first ≤ c && c ≤ last
  match mode with
  | plain => plain
  | escape =>
    if inside ' ' '/' then escapeTail
    else if c = '[' then command
    else if c = ']' then title
    else if c = 'P' then device
    else if c = 'X' ∨ c = '^' ∨ c = '_' then data
    else plain
  | escapeTail => if inside ' ' '/' then escapeTail else plain
  | command => if inside ' ' '?' then command else plain
  | device =>
    if inside ' ' '/' then deviceTail else if inside '0' '?' then deviceNumbers else data
  | deviceNumbers =>
    if inside ' ' '/' then deviceTail else if inside '0' ';' then deviceNumbers else data
  | deviceTail => if inside ' ' '/' then deviceTail else data
  | data => data
  | title => title

/-- What a character makes of a sequence. Escapes begin a new one anywhere. -/
def after (mode : Mode) (c : Char) : Mode :=
  if c = '\x1b' then escape
  else if c < ' ' then mode.afterControl c
  else if c = '\x7f' then mode
  else if c < '\x7f' then mode.afterPrintable c
  else mode.afterWide c

def shows (mode : Mode) (c : Char) : Bool :=
  if c < ' ' then isGap c && (mode == plain || mode.isBroken)
  else mode == plain && c != '\x7f'

end Mode

def visibleFrom (mode : Mode) : List Char → List Char
  | [] => []
  | c :: rest =>
    if mode.shows c then c :: visibleFrom (mode.after c) rest else visibleFrom (mode.after c) rest

def visible (s : String) : String := String.ofList (visibleFrom .plain s.toList)

def firstLine (s : String) : String :=
  let line := s.toList.takeWhile (· ≠ '\n')
  if line.length < s.toList.length ∧ line.getLast? = some '\r' then String.ofList line.dropLast
  else String.ofList line

end TerminalText

end TopicConsumer
