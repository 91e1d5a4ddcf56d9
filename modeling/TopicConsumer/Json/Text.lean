import TopicConsumer.Json.Cursor

namespace TopicConsumer

namespace JsonText

/-- Where a text stands between two bytes: plain, or inside an escape, where `high` is the first half
of a surrogate pair and `got` holds the hex digits so far. -/
inductive Mode where
  | plain
  | escape
  | hex (high : Option Nat) (got : List UInt8)
  | secondBackslash (high : Nat)
  | secondMark (high : Nat)

/-- The characters read, latest first, and a character that is not finished, with the number of its
bytes so far. Once the text is not UTF-8, `broken` counts its bytes from the first wrong one on, an escape
as the bytes of its character. -/
structure Progress where
  out : List Char := []
  pending : Option PartialChar := none
  held : Nat := 0
  broken : Option Nat := none

namespace Progress

def takeByte (p : Progress) (b : UInt8) : Progress :=
  match p.broken with
  | some n => { p with broken := some (n + 1) }
  | none =>
    match utf8Step p.pending b with
    | .whole ch => { p with out := ch :: p.out, pending := none, held := 0 }
    | .unfinished q => { p with pending := some q, held := p.held + 1 }
    | .invalid => { p with broken := some (p.held + 1) }

def endRun (p : Progress) : Progress :=
  if p.pending.isSome && p.broken.isNone then { p with broken := some p.held } else p

def takeChar (p : Progress) (n : Nat) : Progress :=
  match p.broken with
  | some bytes => { p with broken := some (bytes + (Char.ofNat n).utf8Size) }
  | none => { p with out := Char.ofNat n :: p.out }

end Progress

def hexDigit? (b : UInt8) : Option Nat :=
  if 48 ≤ b ∧ b ≤ 57 then some (b.toNat - 48)
  else if 97 ≤ b ∧ b ≤ 102 then some (b.toNat - 87)
  else if 65 ≤ b ∧ b ≤ 70 then some (b.toNat - 55)
  else none

/-- The number that hex digits spell, given latest first. -/
def hexNumber? : List UInt8 → Option Nat
  | [] => some 0
  | b :: earlier => do return (← hexNumber? earlier) * 16 + (← hexDigit? b)

def simpleEscape? (b : UInt8) : Option Nat :=
  if b = 34 ∨ b = 92 ∨ b = 47 then some b.toNat
  else if b = 98 then some 8
  else if b = 102 then some 12
  else if b = 110 then some 10
  else if b = 114 then some 13
  else if b = 116 then some 9
  else none

def lowSurrogate (n : Nat) : Bool := 0xDC00 ≤ n && n ≤ 0xDFFF

def highSurrogate (n : Nat) : Bool := 0xD800 ≤ n && n ≤ 0xDBFF

/-- What four hex digits mean after the first half of a pair or none, at the place behind them. -/
def unicodeEscape (c : JsonCursor) (p : Progress) (high : Option Nat) (got : List UInt8) :
    Except JsonFault (Progress × Mode) :=
  match hexNumber? got, high with
  | none, _ => .error (c.fault "invalid escape")
  | some n, some h =>
    if lowSurrogate n then .ok (p.takeChar (0x10000 + (h - 0xD800) * 0x400 + (n - 0xDC00)), .plain)
    else .error (c.fault "lone leading surrogate in hex escape")
  | some n, none =>
    if lowSurrogate n then .error (c.fault "lone leading surrogate in hex escape")
    else if highSurrogate n then .ok (p, .secondBackslash n)
    else .ok (p.takeChar n, .plain)

/-- Takes one byte, which is not the closing quote of the text. -/
def step (p : Progress) (mode : Mode) (c : JsonCursor) (b : UInt8) : Except JsonFault (Progress × Mode) :=
  match mode with
  | .plain =>
    if b = 92 then .ok (p.endRun, .escape)
    else if b < 32 then
      .error (c.eat.fault "control character (\\u0000-\\u001F) found while parsing a string")
    else .ok (p.takeByte b, .plain)
  | .escape =>
    if b = 117 then .ok (p, .hex none [])
    else
      match simpleEscape? b with
      | some n => .ok (p.takeChar n, .plain)
      | none => .error (c.eat.fault "invalid escape")
  | .hex high got =>
    if got.length < 3 then .ok (p, .hex high (b :: got)) else unicodeEscape c.eat p high (b :: got)
  | .secondBackslash high =>
    if b = 92 then .ok (p, .secondMark high) else .error (c.eat.fault "unexpected end of hex escape")
  | .secondMark high =>
    if b = 117 then .ok (p, .hex (some high) []) else .error (c.eat.fault "unexpected end of hex escape")

def finish (p : Progress) (c : JsonCursor) : Except JsonFault (String × JsonCursor) :=
  match p.endRun.broken with
  | some bytes => .error (c.eat.faultBehind bytes "invalid unicode code point")
  | none => .ok (String.ofList p.out.reverse, c.eat)

def Mode.isPlain : Mode → Bool
  | .plain => true
  | _ => false

private def readFrom (p : Progress) (mode : Mode) (c : JsonCursor) :
    Bytes → Except JsonFault (String × JsonCursor)
  | [] => .error (c.fault "EOF while parsing a string")
  | b :: rest =>
    if mode.isPlain && b = 34 then finish p c
    else
      match step p mode c b with
      | .error fault => .error fault
      | .ok (p, mode) => readFrom p mode c.eat rest

def read (c : JsonCursor) : Except JsonFault (String × JsonCursor) :=
  readFrom {} .plain c c.rest

private def skipHex : Nat → JsonCursor → List UInt8 → Except JsonFault JsonCursor
  | 0, c, got => if (hexNumber? got).isSome then .ok c else .error (c.fault "invalid escape")
  | n + 1, c, got =>
    match c.rest with
    | [] => .error (c.fault "EOF while parsing a string")
    | b :: _ => skipHex n c.eat (b :: got)

/-- Passes a text that nobody asks for: only its escapes and control characters are looked at. The
limit is on the number of characters. -/
def skipWithin : Nat → JsonCursor → Except JsonFault JsonCursor
  | 0, c => .error (c.fault "EOF while parsing a string")
  | limit + 1, c =>
    match c.rest with
    | [] => .error (c.fault "EOF while parsing a string")
    | b :: _ =>
      if b = 34 then .ok c.eat
      else if b = 92 then
        match c.eat.rest with
        | [] => .error (c.eat.fault "EOF while parsing a string")
        | e :: _ =>
          if e = 117 then
            match skipHex 4 c.eat.eat [] with
            | .ok c => skipWithin limit c
            | .error fault => .error fault
          else if (simpleEscape? e).isSome then skipWithin limit c.eat.eat
          else .error (c.eat.eat.fault "invalid escape")
      else if b < 32 then
        .error (c.fault "control character (\\u0000-\\u001F) found while parsing a string")
      else skipWithin limit c.eat

def skip (c : JsonCursor) : Except JsonFault JsonCursor := skipWithin (c.rest.length + 1) c

end JsonText

end TopicConsumer
