import TopicConsumer.Duration

namespace TopicConsumer

/-- The largest count of failures that is told apart. -/
def maxCount : Nat := 4294967295

/-- The power `Nat.pow f e`, or `maxCount` if it is larger. -/
def cappedPow (f e : Nat) : Nat :=
  if f ≤ 1 then Nat.pow f (min e 1)
  else if 32 ≤ e then maxCount
  else min (Nat.pow f e) maxCount

theorem cappedPow_eq (f e : Nat) : cappedPow f e = min (Nat.pow f e) maxCount := by
  unfold cappedPow maxCount
  split
  next h =>
    rcases Nat.le_one_iff_eq_zero_or_eq_one.mp h with rfl | rfl
    · rcases e with _ | e <;> simp
    · simp
  next h =>
    split
    next he =>
      have h2 : 2 ^ 32 ≤ Nat.pow f e :=
        Nat.le_trans (Nat.pow_le_pow_right (by omega) he) (Nat.pow_le_pow_left (by omega) e)
      omega
    next => rfl

inductive Backoff where
  | none
  | constant (delay : Duration)
  | exponential (initial max : Duration) (factor : UInt32)
deriving DecidableEq

namespace Backoff

/-- The wait after the given number of failures in a row: none, always the same, or
`initial * factor ^ (failures - 1)` up to `max`. The power stops at `maxCount`. -/
def delay (failures : UInt32) : Backoff → Duration
  | none => Duration.zero
  | constant d => d
  | exponential initial max factor =>
    Duration.shorter (initial.scale (cappedPow factor.toNat (failures.toNat - 1))) max

def describe : Backoff → String
  | none => "None"
  | constant d => "Constant(" ++ d.describe ++ ")"
  | exponential initial max factor =>
    "Exponential \x7b initial: " ++ initial.describe ++ ", max: " ++ max.describe ++ ", factor: " ++
      toString factor.toNat ++ " \x7d"

end Backoff

structure RetryPolicy where
  maxAttempts : Option UInt32 := none
  backoff : Backoff := .none
  maxElapsed : Option Duration := none
deriving DecidableEq

namespace RetryPolicy

/-- Starts again at once and never gives up. -/
def forever : RetryPolicy := {}

def exhausted (policy : RetryPolicy) (failures : UInt32) (elapsed : Duration) : Bool :=
  policy.maxAttempts.any (· ≤ failures) || policy.maxElapsed.any (· ≤ elapsed)

/-- The wait before the next session, or `none` to give up, after a number of failures in a row that
began `elapsed` ago. -/
def nextDelay (policy : RetryPolicy) (failures : UInt32) (elapsed : Duration) : Option Duration :=
  if policy.exhausted failures elapsed then none else some (policy.backoff.delay failures)

private def describeOption (describe : α → String) : Option α → String
  | none => "None"
  | some a => "Some(" ++ describe a ++ ")"

def describe (policy : RetryPolicy) : String :=
  "RetryPolicy \x7b max_attempts: " ++ describeOption (fun n => toString n.toNat) policy.maxAttempts ++
    ", backoff: " ++ policy.backoff.describe ++ ", max_elapsed: " ++
    describeOption Duration.describe policy.maxElapsed ++ " \x7d"

end RetryPolicy

end TopicConsumer
