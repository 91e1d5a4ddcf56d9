namespace TopicConsumer

def isBlank (c : Char) : Bool := [' ', '\t', '\n', '\x0b', '\x0c', '\r'].contains c

def digitValue? (c : Char) : Option Nat :=
  if '0' ≤ c ∧ c ≤ '9' then some (c.toNat - '0'.toNat)
  else if 'a' ≤ c ∧ c ≤ 'f' then some (c.toNat - 'a'.toNat + 10)
  else if 'A' ≤ c ∧ c ≤ 'F' then some (c.toNat - 'A'.toNat + 10)
  else none

def leadingDigits (base : Nat) : List Char → List Nat
  | [] => []
  | c :: rest =>
    match digitValue? c with
    | none => []
    | some d => if d < base then d :: leadingDigits base rest else []

/-- The digits that a text starts with, in the base that it chooses. -/
def leadingMagnitude? (text : List Char) : Option Nat :=
  let value (base : Nat) (digits : List Nat) : Option Nat :=
    if digits = [] then none else some (digits.foldl (fun n d => base * n + d) 0)
  let octal := value 8 (leadingDigits 8 text)
  match text with
  | '0' :: x :: rest =>
    if x = 'x' ∨ x = 'X' then (value 16 (leadingDigits 16 rest)).or octal else octal
  | '0' :: _ => octal
  | _ => value 10 (leadingDigits 10 text)

def leadingNumber? (text : List Char) : Option Int :=
  match text.dropWhile isBlank with
  | '-' :: rest => (leadingMagnitude? rest).map fun n => -(n : Int)
  | '+' :: rest => (leadingMagnitude? rest).map Int.ofNat
  | rest => (leadingMagnitude? rest).map Int.ofNat

/-- The number that 32 bits keep of one that was first brought into the range of 64. -/
def narrow (n : Int) : Int := (max (-9223372036854775808) (min n 9223372036854775807)).bmod 4294967296

end TopicConsumer
