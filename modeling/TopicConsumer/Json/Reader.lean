import TopicConsumer.Json.Number
import TopicConsumer.Json.Text

namespace TopicConsumer

namespace JsonReader

/-- A list or record whose end has not been reached, with what it holds so far, latest first. -/
inductive Frame where
  | list (items : List Json)
  | record (members : List (String × Json)) (name : String)

/-- Lists and records may stand in each other up to this depth. -/
def depthLimit : Nat := 127

/-- Reads a name and its colon. The cursor is at the opening quote. -/
def readName (c : JsonCursor) : Except JsonFault (String × JsonCursor) := do
  let (name, c) ← JsonText.read c.eat
  let c := c.skipBlanks
  match c.rest with
  | [] => .error (c.faultAhead "EOF while parsing an object")
  | b :: _ => if b = 58 then .ok (name, c.eat) else .error (c.faultAhead "expected `:`")

/-- Where reading stands: a value is due, or a value has just been read. -/
inductive Phase where
  | due (stack : List Frame)
  | read (value : Json) (stack : List Frame)

def readAtom (c : JsonCursor) (b : UInt8) : Except JsonFault (Json × JsonCursor) :=
  if b = 110 then (c.eat.expectWord [117, 108, 108]).map (.null, ·)
  else if b = 116 then (c.eat.expectWord [114, 117, 101]).map (.bool true, ·)
  else if b = 102 then (c.eat.expectWord [97, 108, 115, 101]).map (.bool false, ·)
  else if b = 45 then Number.read c.eat false
  else if JsonCursor.isDigit b then Number.read c true
  else if b = 34 then (JsonText.read c.eat).map fun (s, c) => (.text s, c)
  else .error (c.faultAhead "expected value")

def openList (c : JsonCursor) (stack : List Frame) : Except JsonFault (Phase × JsonCursor) :=
  let c := c.eat.skipBlanks
  match c.rest with
  | [] => .error (c.faultAhead "EOF while parsing a list")
  | b :: _ =>
    if b = 93 then .ok (.read (.list []) stack, c.eat) else .ok (.due (.list [] :: stack), c)

def openRecord (c : JsonCursor) (stack : List Frame) : Except JsonFault (Phase × JsonCursor) :=
  let c := c.eat.skipBlanks
  match c.rest with
  | [] => .error (c.faultAhead "EOF while parsing an object")
  | b :: _ =>
    if b = 125 then .ok (.read (.record []) stack, c.eat)
    else if b = 34 then (readName c).map fun (name, c) => (.due (.record [] name :: stack), c)
    else .error (c.faultAhead "key must be a string")

def stepDue (c : JsonCursor) (stack : List Frame) : Except JsonFault (Phase × JsonCursor) :=
  let c := c.skipBlanks
  match c.rest with
  | [] => .error (c.faultAhead "EOF while parsing a value")
  | b :: _ =>
    if b = 91 ∨ b = 123 then
      if stack.length < depthLimit then if b = 91 then openList c stack else openRecord c stack
      else .error (c.faultAhead "recursion limit exceeded")
    else (readAtom c b).map fun (v, c) => (.read v stack, c)

def stepList (c : JsonCursor) (items : List Json) (stack : List Frame) :
    Except JsonFault (Phase × JsonCursor) :=
  let c := c.skipBlanks
  match c.rest with
  | [] => .error (c.faultAhead "EOF while parsing a list")
  | b :: _ =>
    if b = 93 then .ok (.read (.list items.reverse) stack, c.eat)
    else if b = 44 then
      let c := c.eat.skipBlanks
      match c.rest with
      | [] => .error (c.faultAhead "EOF while parsing a value")
      | b :: _ =>
        if b = 93 then .error (c.faultAhead "trailing comma") else .ok (.due (.list items :: stack), c)
    else .error (c.faultAhead "expected `,` or `]`")

def stepRecord (c : JsonCursor) (members : List (String × Json)) (stack : List Frame) :
    Except JsonFault (Phase × JsonCursor) :=
  let c := c.skipBlanks
  match c.rest with
  | [] => .error (c.faultAhead "EOF while parsing an object")
  | b :: _ =>
    if b = 125 then .ok (.read (.recordOfLatest members) stack, c.eat)
    else if b = 44 then
      let c := c.eat.skipBlanks
      match c.rest with
      | [] => .error (c.faultAhead "EOF while parsing a value")
      | b :: _ =>
        if b = 34 then (readName c).map fun (name, c) => (.due (.record members name :: stack), c)
        else if b = 125 then .error (c.faultAhead "trailing comma")
        else .error (c.faultAhead "key must be a string")
    else .error (c.faultAhead "expected `,` or `\x7d`")

private def run : Nat → Phase → JsonCursor → Except JsonFault (Json × JsonCursor)
  | 0, _, c => .error (c.fault "EOF while parsing a value")
  | _ + 1, .read value [], c => .ok (value, c)
  | fuel + 1, phase, c => do
    let (phase, c) ← match phase with
      | .due stack => stepDue c stack
      | .read value (.list items :: stack) => stepList c (value :: items) stack
      | .read value (.record members name :: stack) => stepRecord c ((name, value) :: members) stack
      | .read value [] => .ok (.read value [], c)
    run fuel phase c

/-- Reads the value that is next. Each step takes a byte, so their number bounds the steps. -/
def readValue (c : JsonCursor) : Except JsonFault (Json × JsonCursor) := run (c.rest.length + 2) (.due []) c

def atEnd (c : JsonCursor) : Except JsonFault Unit :=
  let c := c.skipBlanks
  if c.rest.isEmpty then .ok () else .error (c.faultAhead "trailing characters")

end JsonReader

def Json.parse (bytes : Bytes) : Except JsonFault Json := do
  let (value, c) ← JsonReader.readValue ⟨bytes, 1, 0⟩
  JsonReader.atEnd c
  return value

end TopicConsumer
