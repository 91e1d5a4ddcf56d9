import TopicConsumer.ShortestDecimal

namespace TopicConsumer

/-- The whole number nearest to a quotient, and the even one of two as near. -/
def nearestWhole (n d : Nat) : Nat :=
  if 2 * (n % d) < d then n / d
  else if d < 2 * (n % d) then n / d + 1
  else n / d + n / d % 2

/-- The number `mantissa * 2 ^ exponent`. -/
structure BinaryFraction where
  mantissa : Nat
  exponent : Int
deriving DecidableEq, Repr

namespace BinaryFraction

def timesPowerOfTen (n d : Nat) (power : Int) : Nat × Nat :=
  if 0 ≤ power then (n * Nat.pow 10 power.natAbs, d) else (n, d * Nat.pow 10 power.natAbs)

def timesPowerOfTwo (n d : Nat) (power : Int) : Nat × Nat :=
  if 0 ≤ power then (n * Nat.pow 2 power.natAbs, d) else (n, d * Nat.pow 2 power.natAbs)

/-- The power of two at or next below a positive quotient. -/
def leadingPower (n d : Nat) : Int :=
  let guess : Int := (Nat.log2 n : Int) - Nat.log2 d
  let (n, d) := timesPowerOfTwo n d (-guess)
  if d ≤ n then guess else guess - 1

/-- The double nearest to a quotient; `none` if it is past all doubles. -/
def nearest? (n d : Nat) : Option BinaryFraction :=
  if n = 0 then some ⟨0, 0⟩
  else
    let exponent := max (-1074) (leadingPower n d - 52)
    let (n, d) := timesPowerOfTwo n d (-exponent)
    let mantissa := nearestWhole n d
    if 971 < exponent ∨ (exponent = 971 ∧ 2 * ShortestDecimal.hiddenBit ≤ mantissa) then none
    else some ⟨mantissa, exponent⟩

def exceeds (x : BinaryFraction) (bound : Nat) : Bool :=
  let (n, d) := timesPowerOfTwo x.mantissa 1 x.exponent
  bound * d < n

/-- Six digits, the first not zero, and the power of ten they count. -/
def sixDigits (x : BinaryFraction) : Nat × Int :=
  let (n, d) := timesPowerOfTwo x.mantissa 1 x.exponent
  let length (k : Nat) : Int := (Nat.toDigits 10 k).length
  let power := (if d ≤ n then length (n / d) - 1 else -length (d / n)) - 5
  let (n, d) := timesPowerOfTen n d (-power)
  let digits := nearestWhole n d
  if digits = 1000000 then (100000, power + 1) else (digits, power)

private def withoutEndingZeros (digits : List Char) : List Char :=
  (digits.reverse.dropWhile (· = '0')).reverse

private def withFraction (whole fraction : List Char) : String :=
  let fraction := withoutEndingZeros fraction
  String.ofList (if fraction = [] then whole else whole ++ '.' :: fraction)

/-- How the number is written with six digits: positional from ten to the -4 up to below ten to the 6,
and with an exponent of at least two digits beyond. Zeros that end a fraction are not written. -/
def sixDigitText (x : BinaryFraction) : String :=
  if x.mantissa = 0 then "0"
  else
    let (digits, power) := x.sixDigits
    let ds := Nat.toDigits 10 digits
    let leading := power + 5
    if 0 ≤ leading ∧ leading < 6 then
      withFraction (ds.take (leading.natAbs + 1)) (ds.drop (leading.natAbs + 1))
    else if -4 ≤ leading ∧ leading < 0 then
      withFraction ['0'] (List.replicate (leading.natAbs - 1) '0' ++ ds)
    else
      withFraction (ds.take 1) (ds.drop 1) ++ "e" ++ (if 0 ≤ leading then "+" else "-") ++
        (if leading.natAbs < 10 then "0" else "") ++ toString leading.natAbs

end BinaryFraction

end TopicConsumer
