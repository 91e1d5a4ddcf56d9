import Mathlib.Algebra.Group.Nat.Defs
import TopicConsumer.Retry

namespace TopicConsumer

theorem Duration.nanos_le_longest (d : Duration) : d.nanos ≤ longest.nanos :=
  Nat.le_sub_one_of_lt d.nanos_lt

namespace Backoff

/-- The curve `initial * factor ^ (failures - 1)` up to `max`, in nanoseconds. -/
def curve (initial max : Duration) (factor failures : UInt32) : Nat :=
  min max.nanos (initial.nanos * factor.toNat ^ (failures.toNat - 1))

theorem delay_nanos (initial max : Duration) (factor failures : UInt32) :
    ((exponential initial max factor).delay failures).nanos =
      min max.nanos (initial.nanos * min (factor.toNat ^ (failures.toNat - 1)) maxCount) := by
  have hmax := max.nanos_le_longest
  have hpower : cappedPow factor.toNat (failures.toNat - 1) = min (factor.toNat ^ (failures.toNat - 1)) maxCount :=
    cappedPow_eq factor.toNat (failures.toNat - 1)
  rw [delay, Duration.nanos_shorter, Duration.nanos_scale, hpower]
  omega

end Backoff

theorem min_mul_min_eq_iff (bound n power limit : Nat) :
    min bound (n * min power limit) = min bound (n * power) ↔ power ≤ limit ∨ n = 0 ∨ bound ≤ n * limit := by
  rcases Nat.le_total power limit with hle | hle
  · rw [Nat.min_eq_left hle]
    exact ⟨fun _ => .inl hle, fun _ => rfl⟩
  rw [Nat.min_eq_right hle]
  rcases Nat.eq_zero_or_pos n with rfl | hn
  · simp
  have hmul : n * limit ≤ n * power := Nat.mul_le_mul_left n hle
  constructor
  · intro he
    rcases Nat.lt_or_ge limit power with hlt | hge
    · have hcut : n * limit < n * power := Nat.mul_lt_mul_of_pos_left hlt hn
      omega
    · exact .inl hge
  · rintro (hp | hz | hb)
    · rw [Nat.le_antisymm hp hle]
    · omega
    · omega

/-- An exponential wait is never above its curve, and on it exactly as long as the power can be told as a count,
or `max` is reached by the largest count. Only the bound on the power makes the difference. -/
theorem exponential_delay_on_curve (initial max : Duration) (factor failures : UInt32) :
    let wait := ((Backoff.exponential initial max factor).delay failures).nanos
    let power := factor.toNat ^ (failures.toNat - 1)
    wait = min max.nanos (initial.nanos * min power maxCount) ∧
      wait ≤ Backoff.curve initial max factor failures ∧
      (wait = Backoff.curve initial max factor failures ↔
        power ≤ maxCount ∨ initial.nanos = 0 ∨ max.nanos ≤ initial.nanos * maxCount) := by
  intro wait power
  have hwait : wait = min max.nanos (initial.nanos * min power maxCount) :=
    Backoff.delay_nanos initial max factor failures
  have hcurve : Backoff.curve initial max factor failures = min max.nanos (initial.nanos * power) := rfl
  have hmul : initial.nanos * min power maxCount ≤ initial.nanos * power :=
    Nat.mul_le_mul_left _ (Nat.min_le_left _ _)
  rw [hwait, hcurve]
  refine ⟨rfl, by omega, ?_⟩
  exact min_mul_min_eq_iff max.nanos initial.nanos power maxCount

/-- From one nanosecond on, doubled after each failure and with ten seconds as the longest wait, the wait after
34 failures is half of what the curve says. -/
theorem long_backoff_below_curve :
    ((Backoff.exponential (Duration.ofNanos 1) (Duration.ofNanos 10000000000) 2).delay 34).nanos = 4294967295 ∧
      Backoff.curve (Duration.ofNanos 1) (Duration.ofNanos 10000000000) 2 34 = 8589934592 := by
  decide

end TopicConsumer
