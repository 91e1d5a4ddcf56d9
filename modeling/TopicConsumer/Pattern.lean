import TopicConsumer.Utf8

namespace TopicConsumer

inductive PatternFault where
  | malformed
  | collation
  | characterClass
  | escape
  | backReference
  | bracket
  | group
  | brace
  | braceContent
  | range
  | tooBig
  | repetition
deriving DecidableEq, Repr

def PatternFault.message : PatternFault → String
  | malformed => "Invalid regular expression"
  | collation => "Invalid collation character"
  | characterClass => "Invalid character class name"
  | escape => "Trailing backslash"
  | backReference => "Invalid back reference"
  | bracket => "Unmatched [, [^, [:, [., or [="
  | group => "Unmatched ( or \\("
  | brace => "Unmatched \\\x7b"
  | braceContent => "Invalid content of \\\x7b\\\x7d"
  | range => "Invalid range end"
  | tooBig => "Regular expression too big"
  | repetition => "Invalid preceding regular expression"

namespace Pattern

private def byte (c : Char) : UInt8 := c.toNat.toUInt8

inductive BracketToken where
  | char (b : UInt8)
  /-- A dot, an equals sign or a colon after an opening bracket. -/
  | named (delimiter : UInt8)
  | close
  | negation
  | dash
  | ended

/-- The next token of a list, and the bytes behind it. -/
def bracketToken : Bytes → BracketToken × Bytes
  | [] => (.ended, [])
  | b :: rest =>
    if b = byte '[' then
      match rest with
      | d :: rest' =>
        if [byte '.', byte '=', byte ':'].contains d then (.named d, rest') else (.char b, rest)
      | [] => (.char b, rest)
    else if b = byte ']' then (.close, rest)
    else if b = byte '^' then (.negation, rest)
    else if b = byte '-' then (.dash, rest)
    else (.char b, rest)

inductive Member where
  | char (b : UInt8)
  | collating (name : Bytes)
  | equivalence (name : Bytes)
  | characterClass (name : Bytes)

def nameLimit : Nat := 32

def readName (delimiter : UInt8) : Nat → Bytes → Bytes → Except PatternFault (Bytes × Bytes)
  | _, _, [] => .error .bracket
  | _, _, [_] => .error .bracket
  | 0, _, _ => .error .bracket
  | room + 1, name, b :: c :: rest =>
    if b = delimiter ∧ c = byte ']' then .ok (name.reverse, rest)
    else readName delimiter room (b :: name) (c :: rest)

/-- Reads the member that a token begins, where a dash may be one by itself or not. -/
def readMember (token : BracketToken) (behind : Bytes) (dashes : Bool) :
    Except PatternFault (Member × Bytes) :=
  match token with
  | .named d => do
    let (name, rest) ← readName d nameLimit [] behind
    if d = byte '.' then return (.collating name, rest)
    else if d = byte '=' then return (.equivalence name, rest)
    else return (.characterClass name, rest)
  | .dash =>
    match dashes, bracketToken behind with
    | false, (.close, _) => .ok (.char (byte '-'), behind)
    | false, _ => .error .range
    | true, _ => .ok (.char (byte '-'), behind)
  | .char b => .ok (.char b, behind)
  | .close => .ok (.char (byte ']'), behind)
  | .negation => .ok (.char (byte '^'), behind)
  | .ended => .error .bracket

private def classNames : List Bytes :=
  ["alnum", "cntrl", "lower", "space", "alpha", "digit", "print", "upper", "blank", "graph", "punct",
    "xdigit"].map fun name => name.toUTF8.toList

/-- The place of a member in the order of characters, if it can end a range. -/
def Member.place : Member → Except PatternFault UInt8
  | char b => .ok b
  | collating [b] => .ok b
  | collating _ => .error .collation
  | equivalence _ => .error .range
  | characterClass _ => .error .range

/-- A range goes up. What cannot be in one is told before names that stand for nothing. -/
def checkRange (first last : Member) : Except PatternFault Unit :=
  match first.place, last.place with
  | .error .range, _ => .error .range
  | _, .error .range => .error .range
  | .error fault, _ => .error fault
  | _, .error fault => .error fault
  | .ok low, .ok high => if low ≤ high then .ok () else .error .range

def Member.check : Member → Except PatternFault Unit
  | char _ => .ok ()
  | collating [_] => .ok ()
  | collating _ => .error .collation
  | equivalence [_] => .ok ()
  | equivalence _ => .error .collation
  | characterClass name => if classNames.contains name then .ok () else .error .characterClass

def Member.isRangeEnd : Member → Bool
  | char _ => true
  | collating _ => true
  | _ => false

/-- The members of a list up to its closing bracket, and what is behind it. The limit is on the number
of members. -/
def readMembers : Nat → Bool → BracketToken → Bytes → Except PatternFault Bytes
  | 0, _, _, _ => .error .bracket
  | limit + 1, leading, token, behind => do
    let (member, rest) ← readMember token behind leading
    let (next, after) := bracketToken rest
    let proceed (token : BracketToken) (after : Bytes) : Except PatternFault Bytes :=
      match token with
      | .ended => .error .bracket
      | .close => .ok after
      | token => readMembers limit false token after
    match member.isRangeEnd, next with
    | true, .ended => throw .bracket
    | true, .dash =>
      match bracketToken after with
      | (.ended, _) => throw .bracket
      | (.close, _) =>
        member.check
        readMembers limit false (.char (byte '-')) after
      | (last, after) =>
        let (last, rest) ← readMember last after true
        checkRange member last
        let (next, after) := bracketToken rest
        proceed next after
    | _, _ =>
      member.check
      proceed next after

/-- Passes a list from the byte behind its opening bracket. A closing bracket in the first place is a
member. -/
def readBracket (text : Bytes) : Except PatternFault Bytes :=
  let begin (token : BracketToken) (after : Bytes) : Except PatternFault Bytes :=
    match token with
    | .ended => .error .malformed
    | token => readMembers (text.length + 1) true token after
  match bracketToken text with
  | (.negation, after) =>
    let (token, after) := bracketToken after
    begin token after
  | (token, after) => begin token after

inductive Token where
  | char (b : UInt8)
  | backReference (number : Nat)
  | alternative
  | repetition
  | openBrace
  | closeBrace
  | openGroup
  | closeGroup
  | openBracket
  | anchor
  | lastBackslash
  | ended

def escaped (b : UInt8) : Token :=
  if byte '1' ≤ b ∧ b ≤ byte '9' then .backReference (b.toNat - 49)
  else if ["<", ">", "b", "B", "\x60", "\x27"].any fun s => s.toUTF8.toList = [b] then .anchor
  else .char b

def nextToken : Bytes → Token × Bytes
  | [] => (.ended, [])
  | b :: rest =>
    let token : Token :=
      if b = byte '|' then .alternative
      else if b = byte '*' ∨ b = byte '+' ∨ b = byte '?' then .repetition
      else if b = byte '\x7b' then .openBrace
      else if b = byte '\x7d' then .closeBrace
      else if b = byte '(' then .openGroup
      else if b = byte ')' then .closeGroup
      else if b = byte '[' then .openBracket
      else if b = byte '^' ∨ b = byte '$' then .anchor
      else .char b
    if b = byte '\\' then
      match rest with
      | [] => (.lastBackslash, [])
      | c :: rest => (escaped c, rest)
    else (token, rest)

def repetitionLimit : Nat := 32767

/-- What ended a number between braces. -/
inductive NumberEnd where
  | brace
  | comma
  | text

/-- A number between braces: none if there are no digits, an error if there is something else. -/
inductive BraceNumber where
  | absent
  | wrong
  | value (n : Nat)

def BraceNumber.add (number : BraceNumber) : Token → BraceNumber
  | .char b =>
    if byte '0' ≤ b ∧ b ≤ byte '9' then
      match number with
      | wrong => wrong
      | absent => value (b.toNat - 48)
      | value n => value (min (repetitionLimit + 1) (n * 10 + (b.toNat - 48)))
    else wrong
  | _ => wrong

/-- Reads a number up to a comma, the closing brace, or the end of the text. The limit is on the number
of tokens. -/
def readBraceNumber : Nat → BraceNumber → Bytes → BraceNumber × NumberEnd × Bytes
  | 0, _, text => (.wrong, .text, text)
  | limit + 1, number, text =>
    match nextToken text with
    | (.ended, rest) => (.wrong, .text, rest)
    | (.closeBrace, rest) => (number, .brace, rest)
    | (.char b, rest) =>
      if b = byte ',' then (number, .comma, rest)
      else readBraceNumber limit (number.add (.char b)) rest
    | (token, rest) => readBraceNumber limit (number.add token) rest

def readBraces (text : Bytes) : Except PatternFault Bytes :=
  let wrong (ending : NumberEnd) : Except PatternFault Bytes :=
    match ending with
    | .text => .error .brace
    | _ => .error .braceContent
  let limited (n : Nat) (rest : Bytes) : Except PatternFault Bytes :=
    if repetitionLimit < n then .error .tooBig else .ok rest
  let upTo (least : Nat) (rest : Bytes) : Except PatternFault Bytes :=
    match readBraceNumber (text.length + 1) .absent rest with
    | (.wrong, ending, _) => wrong ending
    | (.absent, .brace, rest) => limited least rest
    | (.value greatest, .brace, rest) =>
      if greatest < least then .error .braceContent else limited greatest rest
    | _ => .error .braceContent
  match readBraceNumber (text.length + 1) .absent text with
  | (.wrong, ending, _) => wrong ending
  | (.absent, .comma, rest) => upTo 0 rest
  | (.absent, _, _) => .error .braceContent
  | (.value n, .brace, rest) => limited n rest
  | (.value n, _, rest) => upTo n rest

/-- A group that is open, or the whole expression: the groups that were complete before it and those
that an earlier alternative of it completes. -/
structure Frame where
  number : Nat
  before : List Nat
  earlier : List Nat := []

structure State where
  /-- The groups complete so far, which can be referred to. -/
  complete : List Nat := []
  groups : Nat := 0
  frames : List Frame := []
  whole : Frame := ⟨0, [], []⟩

namespace State

private def alternate (s : State) (frame : Frame) : List Nat × Frame :=
  (frame.before, { frame with earlier := frame.earlier ++ s.complete })

/-- Begins another alternative, which cannot refer to groups of the others. -/
def nextAlternative (s : State) : State :=
  match s.frames with
  | [] =>
    let (complete, whole) := s.alternate s.whole
    { s with complete := complete, whole := whole }
  | frame :: frames =>
    let (complete, frame) := s.alternate frame
    { s with complete := complete, frames := frame :: frames }

def openGroup (s : State) : State :=
  { s with groups := s.groups + 1, frames := ⟨s.groups, s.complete, []⟩ :: s.frames }

def closeGroup? (s : State) : Option State :=
  match s.frames with
  | [] => none
  | frame :: frames =>
    some { s with complete := frame.number :: s.complete ++ frame.earlier, frames := frames }

end State

/-- Checks the rest of an expression. `item` tells whether something that can be repeated has just been
read. The limit is on the number of tokens. -/
def checkFrom : Nat → State → Bool → Bytes → Except PatternFault Unit
  | 0, _, _, _ => .ok ()
  | limit + 1, s, item, text => do
    let (token, rest) := nextToken text
    match token with
    | .ended => if s.frames.isEmpty then return () else throw .group
    | .lastBackslash => throw .escape
    | .alternative => checkFrom limit s.nextAlternative false rest
    | .anchor => checkFrom limit s false rest
    | .char _ => checkFrom limit s true rest
    | .closeBrace => checkFrom limit s true rest
    | .openGroup => checkFrom limit s.openGroup false rest
    | .closeGroup => checkFrom limit (s.closeGroup?.getD s) true rest
    | .backReference n =>
      if n ∈ s.complete then checkFrom limit s true rest else throw .backReference
    | .openBracket => checkFrom limit s true (← readBracket rest)
    | .repetition => if item then checkFrom limit s true rest else throw .repetition
    | .openBrace => if item then checkFrom limit s true (← readBraces rest) else throw .repetition

def fault? (text : String) : Option PatternFault :=
  let bytes := text.toUTF8.toList
  match checkFrom (bytes.length + 1) {} false bytes with
  | .ok () => none
  | .error fault => some fault

end Pattern

end TopicConsumer
