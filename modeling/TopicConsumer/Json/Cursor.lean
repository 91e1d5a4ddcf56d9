import TopicConsumer.Utf8

namespace TopicConsumer

/-- Why a document is refused, and where. -/
structure JsonFault where
  reason : String
  line : Nat
  column : Nat
deriving DecidableEq, Repr

def JsonFault.describe (fault : JsonFault) : String :=
  fault.reason ++ " at line " ++ toString fault.line ++ " column " ++ toString fault.column

structure JsonCursor where
  rest : Bytes
  line : Nat := 1
  column : Nat := 0

namespace JsonCursor

def eat (c : JsonCursor) : JsonCursor :=
  match c.rest with
  | [] => c
  | b :: rest => if b = 10 then ⟨rest, c.line + 1, 0⟩ else ⟨rest, c.line, c.column + 1⟩

/-- Passes some bytes that are not line feeds. -/
def eatInLine (c : JsonCursor) (n : Nat) : JsonCursor := ⟨c.rest.drop n, c.line, c.column + n⟩

def fault (c : JsonCursor) (reason : String) : JsonFault := ⟨reason, c.line, c.column⟩

/-- A fault some bytes before the end of the bytes passed so far, on the same line. -/
def faultBehind (c : JsonCursor) (bytes : Nat) (reason : String) : JsonFault :=
  ⟨reason, c.line, c.column - bytes⟩

def faultAhead (c : JsonCursor) (reason : String) : JsonFault := c.eat.fault reason

def isBlank (b : UInt8) : Bool := b = 32 || b = 10 || b = 9 || b = 13

private def skipBlanksFrom : Bytes → Nat → Nat → JsonCursor
  | [], line, column => ⟨[], line, column⟩
  | b :: rest, line, column =>
    if b = 10 then skipBlanksFrom rest (line + 1) 0
    else if isBlank b then skipBlanksFrom rest line (column + 1)
    else ⟨b :: rest, line, column⟩

def skipBlanks (c : JsonCursor) : JsonCursor := skipBlanksFrom c.rest c.line c.column

def isDigit (b : UInt8) : Bool := 48 ≤ b && b ≤ 57

def digitValue (b : UInt8) : Nat := b.toNat - 48

def digits (c : JsonCursor) : List Nat := (c.rest.takeWhile isDigit).map digitValue

def atDigit (c : JsonCursor) : Bool := c.rest.head?.any isDigit

def atExponent (c : JsonCursor) : Bool := c.rest.head?.any fun b => b = 101 || b = 69

def atPoint (c : JsonCursor) : Bool := c.rest.head? == some 46

/-- Passes the bytes of a word, the first of which is wrong or missing. -/
def expectWord (c : JsonCursor) : List UInt8 → Except JsonFault JsonCursor
  | [] => .ok c
  | w :: word =>
    match c.rest with
    | [] => .error (c.fault "EOF while parsing a value")
    | b :: _ => if b = w then expectWord c.eat word else .error (c.eat.fault "expected ident")

end JsonCursor

end TopicConsumer
