import TopicConsumer.Json.Reader

namespace TopicConsumer

namespace JsonSkip

/-- What encloses a place. -/
inductive Frame where
  | list
  | record
deriving DecidableEq

def Frame.missingEnd : Frame → String
  | list => "EOF while parsing a list"
  | record => "EOF while parsing an object"

def Frame.wrongNext : Frame → String
  | list => "expected `,` or `]`"
  | record => "expected `,` or `\x7d`"

def Frame.closing : Frame → UInt8
  | list => 93
  | record => 125

def eatDigits (c : JsonCursor) : JsonCursor := c.eatInLine c.digits.length

def skipExponent (c : JsonCursor) : Except JsonFault JsonCursor :=
  let c := c.eat
  let sign := c.rest.head?
  let c := if sign == some 43 || sign == some 45 then c.eat else c
  if c.atDigit then .ok (eatDigits c) else .error (c.eat.fault "invalid number")

def skipFraction (c : JsonCursor) : Except JsonFault JsonCursor :=
  let c := c.eat
  if c.atDigit then
    let c := eatDigits c
    if c.atExponent then skipExponent c else .ok c
  else .error (c.faultAhead "invalid number")

def skipNumber (c : JsonCursor) : Except JsonFault JsonCursor :=
  if !c.atDigit then .error (c.eat.fault "invalid number")
  else if c.rest.head? == some 48 && c.eat.atDigit then .error (c.eat.faultAhead "invalid number")
  else
    let c := eatDigits c
    if c.atPoint then skipFraction c else if c.atExponent then skipExponent c else .ok c

def skipAtom (c : JsonCursor) (b : UInt8) : Except JsonFault JsonCursor :=
  if b = 110 then c.eat.expectWord [117, 108, 108]
  else if b = 116 then c.eat.expectWord [114, 117, 101]
  else if b = 102 then c.eat.expectWord [97, 108, 115, 101]
  else if b = 45 then skipNumber c.eat
  else if JsonCursor.isDigit b then skipNumber c
  else if b = 34 then JsonText.skip c.eat
  else .error (c.faultAhead "expected value")

def skipName (c : JsonCursor) : Except JsonFault JsonCursor := do
  let c := c.skipBlanks
  match c.rest with
  | [] => .error (c.faultAhead "EOF while parsing an object")
  | b :: _ =>
    if b = 34 then
      let c ← JsonText.skip c.eat
      let c := c.skipBlanks
      match c.rest with
      | [] => .error (c.faultAhead "EOF while parsing an object")
      | b :: _ => if b = 58 then .ok c.eat else .error (c.faultAhead "expected `:`")
    else .error (c.faultAhead "key must be a string")

/-- A value is due, a list or record has just begun, or a value has just been passed. -/
inductive Phase where
  | due
  | opened
  | passed

def step (phase : Phase) (stack : List Frame) (c : JsonCursor) :
    Except JsonFault (Phase × List Frame × JsonCursor) :=
  let c := c.skipBlanks
  match phase, stack, c.rest with
  | .due, _, [] => .error (c.faultAhead "EOF while parsing a value")
  | .due, stack, b :: _ =>
    if b = 91 then .ok (.opened, .list :: stack, c.eat)
    else if b = 123 then .ok (.opened, .record :: stack, c.eat)
    else (skipAtom c b).map fun c => (.passed, stack, c)
  | _, [], _ => .ok (.passed, [], c)
  | _, frame :: _, [] => .error (c.faultAhead frame.missingEnd)
  | .opened, frame :: outer, b :: _ =>
    if b = frame.closing then .ok (.passed, outer, c.eat)
    else if frame = .record then (skipName c).map fun c => (.due, stack, c)
    else .ok (.due, stack, c)
  | .passed, frame :: outer, b :: _ =>
    if b = frame.closing then .ok (.passed, outer, c.eat)
    else if b = 44 then
      if frame = .record then (skipName c.eat).map fun c => (.due, stack, c)
      else .ok (.due, stack, c.eat)
    else .error (c.faultAhead frame.wrongNext)

private def run : Nat → Phase → List Frame → JsonCursor → Except JsonFault JsonCursor
  | _, .passed, [], c => .ok c
  | 0, _, _, c => .error (c.fault "EOF while parsing a value")
  | fuel + 1, phase, stack, c => do
    let (phase, stack, c) ← step phase stack c
    run fuel phase stack c

/-- Passes the value that is next. Of two steps at least one takes a byte. -/
def skipValue (c : JsonCursor) : Except JsonFault JsonCursor := run (2 * c.rest.length + 3) .due [] c

end JsonSkip

end TopicConsumer
