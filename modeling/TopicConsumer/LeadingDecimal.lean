import TopicConsumer.BinaryFraction
import TopicConsumer.LeadingNumber

namespace TopicConsumer

inductive LeadingDecimal where
  | finite (negative : Bool) (size : BinaryFraction)
  | infinite (negative : Bool)
  | undefined
deriving DecidableEq, Repr

namespace LeadingDecimal

/-- The digits of a base, how many of them are behind a point, and the rest of the text. -/
def significand? (base : Nat) (text : List Char) : Option (List Nat × Nat × List Char) :=
  let whole := leadingDigits base text
  let rest := text.drop whole.length
  match rest with
  | '.' :: behind =>
    let fraction := leadingDigits base behind
    if whole = [] ∧ fraction = [] then none
    else some (whole ++ fraction, fraction.length, behind.drop fraction.length)
  | _ => if whole = [] then none else some (whole, 0, rest)

def exponent (mark : Char) (text : List Char) : Int :=
  let value (digits : List Char) : Int :=
    ((leadingDigits 10 digits).foldl (fun n d => 10 * n + d) 0 : Nat)
  match text with
  | m :: rest =>
    if m.toLower = mark then
      match rest with
      | '-' :: digits => -value digits
      | '+' :: digits => value digits
      | digits => value digits
    else 0
  | [] => 0

/-- A number with more places than this before the point is past all doubles, and one with more zeros
than this behind it is nearest to zero. -/
def widest : Int := 5000

/-- The size of a number of which some digits make a power, where a digit takes `width` places. -/
private def size (width : Nat) (digits : List Nat) (power : Int) (quotient : Unit → Nat × Nat) :
    Option BinaryFraction :=
  let places : Int := (width * (digits.dropWhile (· = 0)).length : Nat) + power
  if digits.all (· = 0) ∨ places < -widest then some ⟨0, 0⟩
  else if widest < places then none
  else
    let (n, d) := quotient ()
    BinaryFraction.nearest? n d

/-- The size of the number that a text without sign starts with; `some none` if it is infinite. -/
def magnitude? (text : List Char) : Option (Option BinaryFraction) :=
  let number (base : Nat) (digits : List Nat) : Nat := digits.foldl (fun n d => base * n + d) 0
  let decimal : Option (Option BinaryFraction) :=
    (significand? 10 text).map fun (digits, fraction, rest) =>
      let power := exponent 'e' rest - fraction
      size 1 digits power fun _ =>
        BinaryFraction.timesPowerOfTen (number 10 digits) 1 power
  match text with
  | '0' :: x :: behind =>
    if x.toLower = 'x' then
      match significand? 16 behind with
      | none => decimal
      | some (digits, fraction, rest) =>
        let power := exponent 'p' rest - 4 * fraction
        some (size 4 digits power fun _ =>
          BinaryFraction.timesPowerOfTwo (number 16 digits) 1 power)
    else decimal
  | _ => decimal

private def startsWith (text : List Char) (word : String) : Bool :=
  (text.take word.length).map Char.toLower = word.toList

def read? (text : List Char) : Option LeadingDecimal :=
  let unsigned (negative : Bool) (text : List Char) : Option LeadingDecimal :=
    if startsWith text "inf" then some (infinite negative)
    else if startsWith text "nan" then some undefined
    else
      (magnitude? text).map fun
        | none => infinite negative
        | some size => finite negative size
  match text.dropWhile isBlank with
  | '-' :: rest => unsigned true rest
  | '+' :: rest => unsigned false rest
  | rest => unsigned false rest

def isOutside (bound : Nat) : LeadingDecimal → Bool
  | finite true size => size.mantissa ≠ 0
  | finite false size => size.exceeds bound
  | infinite _ => true
  | undefined => false

def text : LeadingDecimal → String
  | finite negative size => (if negative then "-" else "") ++ size.sixDigitText
  | infinite negative => if negative then "-inf" else "inf"
  | undefined => "nan"

end LeadingDecimal

end TopicConsumer
