namespace TopicConsumer

def nanosPerSecond : Nat := 1000000000

/-- The nanoseconds of 2^64 seconds. -/
def nanoLimit : Nat := 18446744073709551616 * nanosPerSecond

/-- A length of time: less than 2^64 seconds, in nanoseconds. -/
structure Duration where
  nanos : Nat
  nanos_lt : nanos < nanoLimit
deriving DecidableEq, Repr

namespace Duration

theorem ext {a b : Duration} (h : a.nanos = b.nanos) : a = b := by
  cases a; cases b; simp_all

instance : LE Duration := ⟨fun a b => a.nanos ≤ b.nanos⟩

instance : LT Duration := ⟨fun a b => a.nanos < b.nanos⟩

instance (a b : Duration) : Decidable (a ≤ b) := inferInstanceAs (Decidable (a.nanos ≤ b.nanos))

instance (a b : Duration) : Decidable (a < b) := inferInstanceAs (Decidable (a.nanos < b.nanos))

theorem le_def {a b : Duration} : a ≤ b ↔ a.nanos ≤ b.nanos := Iff.rfl

def zero : Duration := ⟨0, by decide⟩

def longest : Duration := ⟨nanoLimit - 1, by decide⟩

/-- The duration of `n` nanoseconds, or the longest one if `n` is past the limit. -/
def ofNanos (n : Nat) : Duration :=
  if h : n < nanoLimit then ⟨n, h⟩ else longest

theorem nanos_ofNanos (n : Nat) : (ofNanos n).nanos = min n longest.nanos := by
  have hl : longest.nanos = nanoLimit - 1 := rfl
  unfold ofNanos
  split
  next h => exact (Nat.min_eq_left (Nat.le_sub_one_of_lt h)).symm
  next h => exact (Nat.min_eq_right (by omega)).symm

def ofMillis (n : Nat) : Duration := ofNanos (n * 1000000)

/-- The duration of some whole seconds and a number of nanoseconds, which may be a second or more. -/
def ofParts (seconds nanos : Nat) : Duration := ofNanos (seconds * nanosPerSecond + nanos)

def seconds (d : Duration) : Nat := d.nanos / nanosPerSecond

def subsecond (d : Duration) : Nat := d.nanos % nanosPerSecond

/-- Whole milliseconds, rounded down. -/
def millis (d : Duration) : Nat := d.nanos / 1000000

def scale (d : Duration) (k : Nat) : Duration := ofNanos (d.nanos * k)

theorem nanos_scale (d : Duration) (k : Nat) : (d.scale k).nanos = min (d.nanos * k) longest.nanos :=
  nanos_ofNanos _

def shorter (a b : Duration) : Duration := if a.nanos ≤ b.nanos then a else b

theorem nanos_shorter (a b : Duration) : (shorter a b).nanos = min a.nanos b.nanos := by
  unfold shorter
  split <;> omega

def fractionDigits (places value : Nat) : List Char :=
  let digits := Nat.toDigits 10 value
  let padded := List.replicate (places - digits.length) '0' ++ digits
  (padded.reverse.dropWhile (· == '0')).reverse

/-- The number `value / 10 ^ places` with the fewest fraction digits that tell it exactly. -/
def decimalText (places value : Nat) : String :=
  let whole := toString (value / Nat.pow 10 places)
  let fraction := fractionDigits places (value % Nat.pow 10 places)
  if fraction.isEmpty then whole else whole ++ "." ++ String.ofList fraction

/-- A duration in the largest of the units s, ms, µs and ns of which it has at least one. -/
def describe (d : Duration) : String :=
  if nanosPerSecond ≤ d.nanos then decimalText 9 d.nanos ++ "s"
  else if 1000000 ≤ d.nanos then decimalText 6 d.nanos ++ "ms"
  else if 1000 ≤ d.nanos then decimalText 3 d.nanos ++ "µs"
  else decimalText 0 d.nanos ++ "ns"

end Duration

end TopicConsumer
