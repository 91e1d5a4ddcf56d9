import TopicConsumer.Json.Cursor
import TopicConsumer.Json.Value

namespace TopicConsumer

namespace Number

/-- Takes digits into a number as long as it stays within `limit`; gives back the others. -/
def absorb (limit value : Nat) : List Nat → Nat × List Nat
  | [] => (value, [])
  | d :: ds => if value * 10 + d ≤ limit then absorb limit (value * 10 + d) ds else (value, d :: ds)

def significandLimit : Nat := 18446744073709551615

def exponentLimit : Nat := 2147483647

/-- Keeps a power of ten between the least and the greatest 32-bit integer. -/
def clampExponent (e : Int) : Int := max (-2147483648) (min 2147483647 e)

def powerOfTen (e : Nat) : Float := Float.ofScientific 1 false e

/-- A double times ten to a power, or `none` if the product is infinite. One step multiplies or divides
by ten to at most 308, and a significand of 64 bits is nothing below ten to the -616. -/
def scale (value : Float) (exponent : Int) : Option Float :=
  if exponent.natAbs ≤ 308 then
    if 0 ≤ exponent then
      let product := value * powerOfTen exponent.natAbs
      if product.isInf then none else some product
    else some (value / powerOfTen exponent.natAbs)
  else if value == 0.0 then some value
  else if 0 ≤ exponent then none
  else
    if exponent < -616 then some 0.0
    else some (value / powerOfTen 308 / powerOfTen (exponent + 308).natAbs)

def signed (positive : Bool) (value : Float) : Float := if positive then value else -value

def float (c : JsonCursor) (positive : Bool) (significand : Nat) (exponent : Int) :
    Except JsonFault (Json × JsonCursor) :=
  match scale significand.toUInt64.toFloat exponent with
  | some value => .ok (.float (signed positive value).toBits, c)
  | none => .error (c.fault "number out of range")

def exponent (c : JsonCursor) (positive : Bool) (significand : Nat) (before : Int) :
    Except JsonFault (Json × JsonCursor) :=
  let c := c.eat
  let sign := c.rest.head?
  let c := if sign == some 43 || sign == some 45 then c.eat else c
  let raises := sign != some 45
  match c.rest with
  | [] => .error (c.fault "EOF while parsing a value")
  | b :: _ =>
    if JsonCursor.isDigit b then
      let ds := c.digits
      let (e, left) := absorb exponentLimit 0 ds
      let afterDigits := c.eatInLine ds.length
      if left.isEmpty then
        float afterDigits positive significand (clampExponent (if raises then before + e else before - e))
      else if significand ≠ 0 ∧ raises then
        .error ((c.eatInLine (ds.length - left.length + 1)).fault "number out of range")
      else .ok (.float (signed positive 0.0).toBits, afterDigits)
    else .error (c.eat.fault "invalid number")

def fraction (c : JsonCursor) (positive : Bool) (significand : Nat) (before : Int) :
    Except JsonFault (Json × JsonCursor) :=
  let c := c.eat
  let ds := c.digits
  if ds.isEmpty then
    .error (c.faultAhead (if c.rest.isEmpty then "EOF while parsing a value" else "invalid number"))
  else
    let (value, left) := absorb significandLimit significand ds
    let power := before - (ds.length - left.length : Nat)
    let c := c.eatInLine ds.length
    if c.atExponent then exponent c positive value power else float c positive value power

/-- The value of an integer that fits 64 bits: a negative one past the least 64-bit integer, or a
negative zero, is a double. -/
def integer (positive : Bool) (significand : Nat) : Json :=
  if positive then .int significand
  else if significand = 0 ∨ 9223372036854775808 < significand then
    .float (-significand.toUInt64.toFloat).toBits
  else .int (-significand)

def read (c : JsonCursor) (positive : Bool) : Except JsonFault (Json × JsonCursor) :=
  match c.rest with
  | [] => .error (c.fault "EOF while parsing a value")
  | b :: _ =>
    if !JsonCursor.isDigit b then .error (c.eat.fault "invalid number")
    else if b = 48 ∧ c.eat.atDigit then .error (c.eat.faultAhead "invalid number")
    else
      let ds := c.digits
      let (significand, left) := absorb significandLimit 0 ds
      let c := c.eatInLine ds.length
      if c.atPoint then fraction c positive significand left.length
      else if c.atExponent then exponent c positive significand left.length
      else if left.isEmpty then .ok (integer positive significand, c)
      else float c positive significand left.length

end Number

end TopicConsumer
