import TopicConsumer.Json.Skip
import TopicConsumer.QuotedText
import TopicConsumer.ShortestDecimal

namespace TopicConsumer

structure Event where
  n : UInt32
deriving DecidableEq

namespace Event

/-- A fault that gets its place later, or one that has it. -/
inductive Fault where
  | unplaced (reason : String)
  | placed (fault : JsonFault)

def Fault.at (c : JsonCursor) : Fault → JsonFault
  | unplaced reason => c.fault reason
  | placed fault => fault

private def wrongNumber (value : Json) (expected : String) : String :=
  match value with
  | .int i => "invalid type: integer `" ++ toString i ++ "`, expected " ++ expected
  | .float bits => "invalid type: floating point `" ++ floatText bits ++ "`, expected " ++ expected
  | _ => "invalid type: null, expected " ++ expected

/-- Refuses a value that is none of what is expected. Atoms are passed, lists and records are not. -/
def refuse (c : JsonCursor) (b : UInt8) (expected : String) : JsonFault :=
  let wrong (what : String) := "invalid type: " ++ what ++ ", expected " ++ expected
  let result : Except JsonFault JsonFault :=
    if b = 110 then (c.eat.expectWord [117, 108, 108]).map fun c => c.fault (wrong "null")
    else if b = 116 then (c.eat.expectWord [114, 117, 101]).map fun c => c.fault (wrong "boolean `true`")
    else if b = 102 then
      (c.eat.expectWord [97, 108, 115, 101]).map fun c => c.fault (wrong "boolean `false`")
    else if b = 45 then (Number.read c.eat false).map fun (v, c) => c.fault (wrongNumber v expected)
    else if JsonCursor.isDigit b then (Number.read c true).map fun (v, c) => c.fault (wrongNumber v expected)
    else if b = 34 then (JsonText.read c.eat).map fun (s, c) => c.fault (wrong ("string " ++ quoted s))
    else if b = 91 then .ok (c.fault (wrong "sequence"))
    else if b = 123 then .ok (c.fault (wrong "map"))
    else .ok (c.faultAhead "expected value")
  match result with
  | .ok fault => fault
  | .error fault => fault

def readCount (c : JsonCursor) : Except JsonFault (UInt32 × JsonCursor) :=
  let c := c.skipBlanks
  match c.rest with
  | [] => .error (c.faultAhead "EOF while parsing a value")
  | b :: _ =>
    if b = 45 ∨ JsonCursor.isDigit b then
      match if b = 45 then Number.read c.eat false else Number.read c true with
      | .error fault => .error fault
      | .ok (.int i, c) =>
        if 0 ≤ i ∧ i < 4294967296 then .ok (i.toNat.toUInt32, c)
        else .error (c.fault ("invalid value: integer `" ++ toString i ++ "`, expected u32"))
      | .ok (v, c) => .error (c.fault (wrongNumber v "u32"))
    else .error (refuse c b "u32")

abbrev Reading (α : Type) := Except Fault α × JsonCursor

private def placed (c : JsonCursor) (fault : JsonFault) : Reading α := (.error (.placed fault), c)

def readItem (c : JsonCursor) : Reading Event :=
  let c := c.skipBlanks
  match c.rest with
  | [] => placed c (c.faultAhead "EOF while parsing a list")
  | b :: _ =>
    if b = 93 then (.error (.unplaced "invalid length 0, expected struct AnEvent with 1 element"), c)
    else
      match readCount c with
      | .ok (n, c) => (.ok ⟨n⟩, c)
      | .error fault => placed c fault

def passColon (c : JsonCursor) : Except JsonFault JsonCursor :=
  let c := c.skipBlanks
  match c.rest with
  | [] => .error (c.faultAhead "EOF while parsing an object")
  | b :: _ => if b = 58 then .ok c.eat else .error (c.faultAhead "expected `:`")

/-- Goes to the opening quote of the next name, or tells that there is none. -/
def nextName (c : JsonCursor) (first : Bool) : Except JsonFault (Bool × JsonCursor) :=
  let c := c.skipBlanks
  match c.rest with
  | [] => .error (c.faultAhead "EOF while parsing an object")
  | b :: _ =>
    if b = 125 then .ok (false, c)
    else if first then
      if b = 34 then .ok (true, c) else .error (c.faultAhead "key must be a string")
    else if b = 44 then
      let c := c.eat.skipBlanks
      match c.rest with
      | [] => .error (c.faultAhead "EOF while parsing a value")
      | b :: _ =>
        if b = 34 then .ok (true, c)
        else if b = 125 then .error (c.faultAhead "trailing comma")
        else .error (c.faultAhead "key must be a string")
    else .error (c.faultAhead "expected `,` or `\x7d`")

/-- Reads the members of a record, after its brace, up to the closing one. Each member takes bytes, so
`limit` bounds their number. -/
def readMembers : Nat → Bool → Option UInt32 → JsonCursor → Reading Event
  | 0, _, _, c => (.error (.unplaced "missing field `n`"), c)
  | limit + 1, first, found, c =>
    match nextName c first with
    | .error fault => placed c fault
    | .ok (false, c) =>
      match found with
      | some n => (.ok ⟨n⟩, c)
      | none => (.error (.unplaced "missing field `n`"), c)
    | .ok (true, c) =>
      match JsonText.read c.eat with
      | .error fault => placed c fault
      | .ok (name, c) =>
        if name = "n" ∧ found.isSome then (.error (.unplaced "duplicate field `n`"), c)
        else
          match passColon c with
          | .error fault => placed c fault
          | .ok c =>
            if name = "n" then
              match readCount c with
              | .error fault => placed c fault
              | .ok (n, c) => readMembers limit false (some n) c
            else
              match JsonSkip.skipValue c with
              | .error fault => placed c fault
              | .ok c => readMembers limit false found c

def closeList (c : JsonCursor) : Except JsonFault JsonCursor × JsonCursor :=
  let c := c.skipBlanks
  match c.rest with
  | [] => (.error (c.faultAhead "EOF while parsing a list"), c)
  | b :: _ =>
    if b = 93 then (.ok c.eat, c.eat)
    else if b = 44 then
      let c := c.eat.skipBlanks
      let trailing := c.rest.head? == some 93
      (.error (c.faultAhead (if trailing then "trailing comma" else "trailing characters")), c)
    else (.error (c.faultAhead "trailing characters"), c)

def closeRecord (c : JsonCursor) : Except JsonFault JsonCursor × JsonCursor :=
  let c := c.skipBlanks
  match c.rest with
  | [] => (.error (c.faultAhead "EOF while parsing an object"), c)
  | b :: _ =>
    if b = 125 then (.ok c.eat, c.eat)
    else if b = 44 then (.error (c.faultAhead "trailing comma"), c)
    else (.error (c.faultAhead "trailing characters"), c)

/-- Joins what was read inside brackets with their closing: a fault from inside comes first, and one
without a place gets the place reached. -/
def closeWith (close : JsonCursor → Except JsonFault JsonCursor × JsonCursor) (reading : Reading Event) :
    Except JsonFault (Event × JsonCursor) :=
  let (closed, c) := close reading.2
  match reading.1, closed with
  | .ok event, .ok c => .ok (event, c)
  | .error fault, _ => .error (fault.at c)
  | .ok _, .error fault => .error fault

def parse (bytes : Bytes) : Except JsonFault Event := do
  let c := JsonCursor.skipBlanks ⟨bytes, 1, 0⟩
  match c.rest with
  | [] => .error (c.faultAhead "EOF while parsing a value")
  | b :: _ =>
    let (event, c) ←
      if b = 91 then closeWith closeList (readItem c.eat)
      else if b = 123 then
        closeWith closeRecord (readMembers (c.rest.length + 1) true none c.eat)
      else .error (refuse c b "struct AnEvent")
    JsonReader.atEnd c
    return event

end Event

end TopicConsumer
