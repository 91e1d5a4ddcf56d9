import Mathlib.Data.List.Infix
import TopicConsumer.GroupRun

namespace TopicConsumer

/-- The times at which the clock is read after a session: when a streak would begin, and how long it has lasted. -/
structure Readings where
  first : Nat
  second : Nat
deriving DecidableEq

def Environment.readings (env : Environment) : Readings := ⟨env.wall, env.wall + env.lapse⟩

/-- What a session returned, and when on the clock by which failing sessions are timed. -/
abbrev SessionReturn := Except Failure Unit × Readings

def isFailing : SessionReturn → Bool
  | (.ok _, _) => false
  | (.error _, _) => true

def failuresInARow (returns : List SessionReturn) : List SessionReturn :=
  (returns.reverse.takeWhile isFailing).reverse

/-- The number of failing sessions at the end, as far as it is counted. -/
def attempts (returns : List SessionReturn) : UInt32 :=
  UInt32.ofNat (min (failuresInARow returns).length maxCount)

/-- The time from the first of the failing sessions at the end to the last look at the clock. -/
def failingFor (returns : List SessionReturn) : Nat :=
  ((failuresInARow returns).getLast?.map (·.2.second)).getD 0 -
    ((failuresInARow returns).head?.map (·.2.first)).getD 0

namespace RetryPolicy

/-- The sessions at the end have failed too often or for too long. -/
def givesUp (policy : RetryPolicy) (returns : List SessionReturn) : Bool :=
  policy.maxAttempts.any (fun most => decide (most.toNat ≤ (failuresInARow returns).length)) ||
    policy.maxElapsed.any fun longest => decide (longest.nanos ≤ failingFor returns)

def ends (policy : RetryPolicy) (returns : List SessionReturn) : Bool :=
  match returns.getLast? with
  | some (.error .clientClosed, _) => true
  | some (.error _, _) => policy.givesUp returns
  | _ => false

def report? (policy : RetryPolicy) (returns : List SessionReturn) : Option Failure :=
  match returns.getLast? with
  | some (.error .clientClosed, _) => none
  | some (.error failure, _) =>
    some (if policy.givesUp returns then .retriesExhausted (attempts returns) failure else failure)
  | _ => none

/-- What is reported after all the sessions, one after the other. -/
def reports (policy : RetryPolicy) (returns : List SessionReturn) : List Failure :=
  returns.inits.filterMap policy.report?

def delayAfter (policy : RetryPolicy) (returns : List SessionReturn) : Duration :=
  policy.backoff.delay (attempts returns)

end RetryPolicy

section Failures

variable {returns : List SessionReturn} {failure : Failure} {now : Readings}

@[simp]
theorem failuresInARow_ok : failuresInARow (returns ++ [(.ok (), now)]) = [] := by
  simp [failuresInARow, isFailing]

@[simp]
theorem failuresInARow_error :
    failuresInARow (returns ++ [(.error failure, now)]) =
      failuresInARow returns ++ [(.error failure, now)] := by
  simp [failuresInARow, List.takeWhile_cons, isFailing]

theorem toNat_attempts (returns : List SessionReturn) :
    (attempts returns).toNat = min (failuresInARow returns).length maxCount := by
  have h : min (failuresInARow returns).length maxCount < 4294967296 := by
    unfold maxCount
    omega
  rw [attempts, UInt32.toNat_ofNat', Nat.mod_eq_of_lt h]

end Failures

namespace RetryPolicy

variable {policy : RetryPolicy} {returns : List SessionReturn} {failure : Failure} {now : Readings}

theorem reports_concat (policy : RetryPolicy) (returns : List SessionReturn) (r : SessionReturn) :
    policy.reports (returns ++ [r]) = policy.reports returns ++ (policy.report? (returns ++ [r])).toList := by
  have hinits : (returns ++ [r]).inits = returns.inits ++ [returns ++ [r]] := by simp [List.inits_append]
  rw [reports, hinits, List.filterMap_append]
  cases h : policy.report? (returns ++ [r]) <;> simp [reports, h]

@[simp]
theorem ends_ok : policy.ends (returns ++ [(.ok (), now)]) = false := by simp [ends]

@[simp]
theorem ends_closed : policy.ends (returns ++ [(.error .clientClosed, now)]) = true := by simp [ends]

theorem ends_error (hf : failure ≠ .clientClosed) :
    policy.ends (returns ++ [(.error failure, now)]) =
      policy.givesUp (returns ++ [(.error failure, now)]) := by
  rw [ends, List.getLast?_concat]
  cases failure <;> first | rfl | exact absurd rfl hf

@[simp]
theorem report?_ok : policy.report? (returns ++ [(.ok (), now)]) = none := by simp [report?]

@[simp]
theorem report?_closed : policy.report? (returns ++ [(.error .clientClosed, now)]) = none := by
  simp [report?]

theorem report?_error (hf : failure ≠ .clientClosed) :
    policy.report? (returns ++ [(.error failure, now)]) =
      some (if policy.givesUp (returns ++ [(.error failure, now)])
        then .retriesExhausted (attempts (returns ++ [(.error failure, now)])) failure else failure) := by
  rw [report?, List.getLast?_concat]
  cases failure <;> first | rfl | exact absurd rfl hf

end RetryPolicy

/-- A streak counts the failing sessions at the end and knows when the first of them failed. -/
structure Streak.Counts (streak : Streak) (returns : List SessionReturn) : Prop where
  failures : streak.failures = attempts returns
  since : streak.since = (failuresInARow returns).head?.map (·.2.first)

namespace Streak

variable {streak : Streak} {returns : List SessionReturn} {failure : Failure} {now : Readings}

theorem counts_new : ({} : Streak).Counts [] := ⟨rfl, rfl⟩

theorem counts_ok : ({} : Streak).Counts (returns ++ [(.ok (), now)]) :=
  ⟨by rw [attempts, failuresInARow_ok]; rfl, by rw [failuresInARow_ok]; rfl⟩

theorem Counts.extend (h : streak.Counts returns) (failure : Failure) (now : Readings) :
    (streak.extend now.first).Counts (returns ++ [(.error failure, now)]) := by
  constructor
  · have hcount : streak.failures.toNat = min (failuresInARow returns).length maxCount := by
      rw [h.failures, toNat_attempts]
    apply UInt32.toNat_inj.mp
    rw [toNat_attempts, failuresInARow_error, List.length_append, List.length_singleton, Streak.extend]
    unfold maxCount at hcount ⊢
    dsimp only
    split
    next hlt =>
      rw [UInt32.toNat_add, UInt32.toNat_one, hcount]
      omega
    next hge => omega
  · rw [Streak.extend, h.since, failuresInARow_error]
    cases failuresInARow returns <;> simp

/-- What the policy says about a streak is what it says about the sessions that it counts. -/
theorem Counts.nextDelay (h : streak.Counts (returns ++ [(.error failure, now)])) (policy : RetryPolicy) :
    policy.nextDelay streak.failures (streak.elapsed now.second) =
      if policy.givesUp (returns ++ [(.error failure, now)]) then none
      else some (policy.delayAfter (returns ++ [(.error failure, now)])) := by
  have hattempts : ∀ most : UInt32, most ≤ streak.failures ↔
      most.toNat ≤ (failuresInARow (returns ++ [(.error failure, now)])).length := by
    intro most
    have hmost := most.toNat_lt
    rw [UInt32.le_iff_toNat_le, h.failures, toNat_attempts]
    unfold maxCount
    omega
  have helapsed : ∀ longest : Duration, longest ≤ streak.elapsed now.second ↔
      longest.nanos ≤ failingFor (returns ++ [(.error failure, now)]) := by
    intro longest
    have hlimit := longest.nanos_lt
    have hfirst : streak.since.getD now.second =
        ((failuresInARow (returns ++ [(.error failure, now)])).head?.map (·.2.first)).getD 0 := by
      rw [h.since, failuresInARow_error]
      cases failuresInARow returns <;> simp
    have hlast :
        ((failuresInARow (returns ++ [(.error failure, now)])).getLast?.map (·.2.second)).getD 0 = now.second := by
      rw [failuresInARow_error]
      simp
    rw [Duration.le_def, Streak.elapsed, Duration.nanos_ofNanos, failingFor, hlast, ← hfirst]
    have hl : Duration.longest.nanos = nanoLimit - 1 := rfl
    omega
  have hexhausted : policy.exhausted streak.failures (streak.elapsed now.second) =
      policy.givesUp (returns ++ [(.error failure, now)]) := by
    simp only [RetryPolicy.exhausted, RetryPolicy.givesUp, hattempts, helapsed]
  rw [RetryPolicy.nextDelay, hexhausted, h.failures]
  rfl

end Streak

end TopicConsumer
