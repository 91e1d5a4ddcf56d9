namespace TopicConsumer

abbrev Bytes := List UInt8

/-- A character of which some bytes are still to come: how many, between which bounds the next one has
to lie, and the bits read so far. -/
structure PartialChar where
  missing : Nat
  low : Nat
  high : Nat
  bits : Nat
deriving DecidableEq

/-- What one more byte makes of a text. -/
inductive Utf8Step where
  | whole (c : Char)
  | unfinished (p : PartialChar)
  | invalid
deriving DecidableEq

/-- Begins a character with its first byte. -/
def utf8First (byte : UInt8) : Utf8Step :=
  let b := byte.toNat
  if b < 0x80 then .whole (Char.ofNat b)
  else if b < 0xC2 then .invalid
  else if b < 0xE0 then .unfinished ⟨1, 0x80, 0xBF, b - 0xC0⟩
  else if b < 0xF0 then
    .unfinished ⟨2, if b = 0xE0 then 0xA0 else 0x80, if b = 0xED then 0x9F else 0xBF, b - 0xE0⟩
  else if b < 0xF5 then
    .unfinished ⟨3, if b = 0xF0 then 0x90 else 0x80, if b = 0xF4 then 0x8F else 0xBF, b - 0xF0⟩
  else .invalid

/-- Goes on with a character that is not finished. -/
def PartialChar.next (p : PartialChar) (byte : UInt8) : Utf8Step :=
  let b := byte.toNat
  if b < p.low ∨ p.high < b then .invalid
  else
    let bits := p.bits * 64 + (b - 0x80)
    if p.missing ≤ 1 then .whole (Char.ofNat bits) else .unfinished ⟨p.missing - 1, 0x80, 0xBF, bits⟩

def utf8Step (pending : Option PartialChar) (byte : UInt8) : Utf8Step :=
  match pending with
  | none => utf8First byte
  | some p => p.next byte

private def utf8Loop (out : List Char) (pending : Option PartialChar) : Bytes → Option (List Char)
  | [] => if pending.isNone then some out.reverse else none
  | b :: rest =>
    match utf8Step pending b with
    | .whole c => utf8Loop (c :: out) none rest
    | .unfinished p => utf8Loop out (some p) rest
    | .invalid => none

/-- The text that some bytes encode. -/
def utf8Text? (bytes : Bytes) : Option String := (utf8Loop [] none bytes).map String.ofList

end TopicConsumer
