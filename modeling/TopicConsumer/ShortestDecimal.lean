namespace TopicConsumer

namespace ShortestDecimal

/-- The bit of a normal double's mantissa that is not written, 2^52. -/
def hiddenBit : Nat := 4503599627370496

/-- The bit that tells the sign of a double, 2^63. -/
def signBit : Nat := 9223372036854775808

/-- A finite double without its sign: `mantissa * 2 ^ exponent`. -/
structure Magnitude where
  mantissa : Nat
  exponent : Int
  /-- Whether the doubles below are twice as close as those above. -/
  narrowBelow : Bool

def magnitude (bits : UInt64) : Magnitude :=
  let fraction : Nat := bits.toNat % hiddenBit
  let scale : Nat := bits.toNat / hiddenBit % 2048
  if scale = 0 then ⟨fraction, -1074, false⟩
  else ⟨hiddenBit + fraction, (scale : Int) - 1075, fraction == 0 && decide (1 < scale)⟩

def ratio (n : Nat) (e : Int) : Nat × Nat :=
  if 0 ≤ e then (n * Nat.pow 2 e.natAbs, 1) else (n, Nat.pow 2 e.natAbs)

/-- The digits and the power of ten of a multiple of `10 ^ grid` that reads back as the magnitude,
the nearer one if two do and the even one of two as near. -/
def onGrid? (m : Magnitude) (grid : Int) : Option (Nat × Int) :=
  -- all lengths are in quarters of the last bit
  let (value, den) := ratio (4 * m.mantissa) (m.exponent - 2)
  let (low, _) := ratio (4 * m.mantissa - if m.narrowBelow then 1 else 2) (m.exponent - 2)
  let (high, _) := ratio (4 * m.mantissa + 2) (m.exponent - 2)
  let (up, down) := if 0 ≤ grid then (Nat.pow 10 grid.natAbs, 1) else (1, Nat.pow 10 grid.natAbs)
  let unit := den * up
  let value := value * down
  let low := low * down
  let high := high * down
  let inside (n : Nat) : Bool :=
    if m.mantissa % 2 = 0 then low ≤ n * unit && n * unit ≤ high
    else low < n * unit && n * unit < high
  let below := value / unit
  let above := below + 1
  let nearBelow :=
    2 * (value - below * unit) < unit || (2 * (value - below * unit) == unit && below % 2 == 0)
  if inside below && 0 < below && (nearBelow || !inside above) then some (below, grid)
  else if inside above then some (above, grid)
  else none

private def findGrid (m : Magnitude) (top : Int) : Nat → Nat → Nat × Int
  | 0, _ => (m.mantissa, 0)
  | fuel + 1, places =>
    match onGrid? m (top - places) with
    | some found => found
    | none => findGrid m top fuel (places + 1)

private def trimZeros : Nat → Nat × Int → Nat × Int
  | 0, d => d
  | fuel + 1, (digits, power) =>
    if digits % 10 = 0 ∧ digits ≠ 0 then trimZeros fuel (digits / 10, power + 1) else (digits, power)

def shortest (bits : UInt64) : Nat × Int :=
  let m := magnitude bits
  let (n, d) := ratio m.mantissa m.exponent
  let digits (k : Nat) : Int := (Nat.toDigits 10 k).length
  let top := if n < d then 1 - digits (d / n) else digits (n / d)
  trimZeros 20 (findGrid m (top + 1) 22 0)

end ShortestDecimal

/-- How a double is written: positional from ten to the -5 up to below ten to the 16, and with an
exponent that always has a sign beyond. There is always a point or an exponent. -/
def floatText (bits : UInt64) : String :=
  open ShortestDecimal in
  let sign := if bits.toNat / signBit = 1 then "-" else ""
  if bits.toNat % signBit = 0 then sign ++ "0.0"
  else
    let (digits, power) := ShortestDecimal.shortest (bits &&& 0x7fffffffffffffff)
    let ds := Nat.toDigits 10 digits
    let point : Int := ds.length + power
    if 0 < point ∧ point ≤ 16 then
      let whole := (ds ++ List.replicate power.toNat '0').take point.toNat
      let fraction := ds.drop point.toNat
      sign ++ String.ofList whole ++ "." ++ String.ofList (if fraction.isEmpty then ['0'] else fraction)
    else if -5 < point ∧ point ≤ 0 then
      sign ++ "0." ++ String.ofList (List.replicate point.natAbs '0' ++ ds)
    else
      let exponent := point - 1
      sign ++ String.ofList (ds.take 1) ++
        (if ds.length = 1 then "" else "." ++ String.ofList (ds.drop 1)) ++
        "e" ++ (if 0 ≤ exponent then "+" else "-") ++ toString exponent.natAbs

end TopicConsumer
