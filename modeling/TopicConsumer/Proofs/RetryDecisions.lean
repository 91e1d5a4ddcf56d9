import Mathlib.Order.WithBot
import TopicConsumer.Proofs.BackoffCurve
import TopicConsumer.Proofs.SessionReturns

namespace TopicConsumer

namespace Backoff

/-- The waits of an exponential backoff grow, or stay as they are, unless its factor is zero. -/
def Grows : Backoff → Prop
  | exponential _ _ factor => 1 ≤ factor
  | _ => True

variable {initial max : Duration} {factor failures later : UInt32}

theorem one_le_power (hfactor : 1 ≤ factor) (e : Nat) : 1 ≤ factor.toNat ^ e :=
  Nat.one_le_pow e factor.toNat (UInt32.le_iff_toNat_le.mp hfactor)

theorem exponential_between (hfactor : 1 ≤ factor) (failures : UInt32) :
    Duration.shorter initial max ≤ (exponential initial max factor).delay failures ∧
      (exponential initial max factor).delay failures ≤ max := by
  -- Nothing is multiplied after one failure, and later the initial wait is multiplied by at least one.
  have hpower := one_le_power hfactor (failures.toNat - 1)
  have hcount : 1 ≤ min (factor.toNat ^ (failures.toNat - 1)) maxCount := Nat.le_min.mpr ⟨hpower, by decide⟩
  have hinitial : initial.nanos ≤ initial.nanos * min (factor.toNat ^ (failures.toNat - 1)) maxCount :=
    Nat.le_mul_of_pos_right _ hcount
  rw [Duration.le_def, Duration.le_def, Duration.nanos_shorter, delay_nanos]
  omega

theorem exponential_mono (hfactor : 1 ≤ factor) (h : failures ≤ later) :
    (exponential initial max factor).delay failures ≤ (exponential initial max factor).delay later := by
  have hexponent : failures.toNat - 1 ≤ later.toNat - 1 := Nat.sub_le_sub_right (UInt32.le_iff_toNat_le.mp h) 1
  have hpower : factor.toNat ^ (failures.toNat - 1) ≤ factor.toNat ^ (later.toNat - 1) :=
    Nat.pow_le_pow_right (UInt32.le_iff_toNat_le.mp hfactor) hexponent
  have hcount : min (factor.toNat ^ (failures.toNat - 1)) maxCount ≤
      min (factor.toNat ^ (later.toNat - 1)) maxCount := by omega
  have hproduct := Nat.mul_le_mul_left initial.nanos hcount
  rw [Duration.le_def, delay_nanos, delay_nanos]
  omega

theorem delay_mono {backoff : Backoff} (hgrows : backoff.Grows) (h : failures ≤ later) :
    backoff.delay failures ≤ backoff.delay later := by
  cases backoff with
  | none | constant => exact Nat.le_refl _
  | exponential => exact exponential_mono hgrows h

end Backoff

namespace RetryPolicy

variable {policy : RetryPolicy} {failures later : UInt32} {elapsed past : Duration}

theorem exhausted_mono (hf : failures ≤ later) (he : elapsed ≤ past) (h : policy.exhausted failures elapsed = true) :
    policy.exhausted later past = true := by
  unfold exhausted at h ⊢
  rcases Bool.or_eq_true_iff.mp h with h | h
  · obtain ⟨most, hmost, hle⟩ := (Option.any_eq_true _ _).mp h
    have hlater : most ≤ later := UInt32.le_trans (of_decide_eq_true hle) hf
    simp [hmost, hlater]
  · obtain ⟨longest, hlongest, hle⟩ := (Option.any_eq_true _ _).mp h
    have hpast : longest ≤ past := Nat.le_trans (of_decide_eq_true hle) he
    simp [hlongest, hpast]

/-- The next wait, in an order in which giving up is longer than every wait. -/
def decision (policy : RetryPolicy) (failures : UInt32) (elapsed : Duration) : WithTop Duration :=
  match policy.nextDelay failures elapsed with
  | none => ⊤
  | some wait => wait

theorem decision_mono (hgrows : policy.backoff.Grows) (hf : failures ≤ later) (he : elapsed ≤ past) :
    policy.decision failures elapsed ≤ policy.decision later past := by
  unfold decision nextDelay
  by_cases hlater : policy.exhausted later past = true
  · rw [if_pos hlater]
    exact le_top
  · have hnow : ¬ policy.exhausted failures elapsed = true := fun h => hlater (exhausted_mono hf he h)
    rw [if_neg hlater, if_neg hnow]
    exact WithTop.coe_le_coe.mpr (Backoff.delay_mono hgrows hf)

end RetryPolicy

namespace Streak

/-- What a policy decides at each of the failures that lengthen a streak. -/
def decisions (policy : RetryPolicy) (streak : Streak) : List Readings → List (WithTop Duration)
  | [] => []
  | now :: rest =>
    let longer := streak.extend now.first
    policy.decision longer.failures (longer.elapsed now.second) :: decisions policy longer rest

theorem failures_le_extend (streak : Streak) (now : Nat) : streak.failures ≤ (streak.extend now).failures := by
  unfold extend
  split
  next hlt =>
    refine UInt32.le_iff_toNat_le.mpr ?_
    rw [UInt32.toNat_add, UInt32.toNat_one]
    unfold maxCount at hlt
    omega
  next => exact UInt32.le_refl _

theorem ofNanos_mono {m n : Nat} (h : m ≤ n) : Duration.ofNanos m ≤ Duration.ofNanos n := by
  rw [Duration.le_def, Duration.nanos_ofNanos, Duration.nanos_ofNanos]
  omega

variable {policy : RetryPolicy} {streak : Streak} {times : List Readings}

theorem le_decisions (hgrows : policy.backoff.Grows) {first now : Nat} {failures : UInt32}
    (hfirst : streak.since = some first) (hf : failures ≤ streak.failures) (hnow : ∀ time ∈ times, now ≤ time.second) :
    ∀ decision ∈ streak.decisions policy times,
      policy.decision failures (Duration.ofNanos (now - first)) ≤ decision := by
  -- By induction on the times. The clock of the streak runs from its first failure on, whatever comes later.
  induction times generalizing streak with
  | nil => simp [decisions]
  | cons time rest ih =>
    obtain ⟨htime, hrest⟩ := List.forall_mem_cons.mp hnow
    have hsince : (streak.extend time.first).since = some first := by simp [extend, hfirst]
    have hlonger : failures ≤ (streak.extend time.first).failures :=
      UInt32.le_trans hf (streak.failures_le_extend time.first)
    have helapsed : Duration.ofNanos (now - first) ≤ (streak.extend time.first).elapsed time.second := by
      rw [elapsed, hsince, Option.getD_some]
      exact ofNanos_mono (Nat.sub_le_sub_right htime first)
    refine List.forall_mem_cons.mpr ⟨RetryPolicy.decision_mono hgrows hlonger helapsed, ?_⟩
    exact ih hsince hlonger hrest

theorem decisions_sorted (hgrows : policy.backoff.Grows) (htimes : times.Pairwise (·.second ≤ ·.second)) :
    (streak.decisions policy times).Pairwise (· ≤ ·) := by
  induction times generalizing streak with
  | nil => exact .nil
  | cons now rest ih =>
    obtain ⟨hnow, hrest⟩ := List.pairwise_cons.mp htimes
    refine List.pairwise_cons.mpr ⟨?_, ih hrest⟩
    have hsince : (streak.extend now.first).since = some (streak.since.getD now.first) := rfl
    exact le_decisions hgrows hsince (UInt32.le_refl _) hnow

end Streak

/-- After more failures in a row and more time a policy waits no shorter, and a policy that has given up does not
decide to go on. So the waits never shrink as a streak of failures goes on, by a clock that does not run back, and no
wait follows the end of it. An exponential wait is never shorter than the first one nor longer than `max`. -/
theorem retry_decisions_monotone (policy : RetryPolicy) (hgrows : policy.backoff.Grows) :
    (∀ failures later elapsed past, failures ≤ later → elapsed ≤ past →
      policy.decision failures elapsed ≤ policy.decision later past) ∧
      (∀ (streak : Streak) times, times.Pairwise (·.second ≤ ·.second) →
        (streak.decisions policy times).Pairwise (· ≤ ·)) ∧
      ∀ initial max factor, policy.backoff = .exponential initial max factor → ∀ failures,
        Duration.shorter initial max ≤ policy.backoff.delay failures ∧ policy.backoff.delay failures ≤ max := by
  refine ⟨fun _ _ _ _ => RetryPolicy.decision_mono hgrows, fun _ _ => Streak.decisions_sorted hgrows, ?_⟩
  intro initial max factor hbackoff failures
  rw [hbackoff] at hgrows ⊢
  exact Backoff.exponential_between hgrows failures

/-- Three failures are waited for longer and longer, up to the longest wait, and the fourth is too much. -/
theorem doubled_waits_end :
    let policy : RetryPolicy :=
      { maxAttempts := some 4, backoff := .exponential (Duration.ofMillis 3) (Duration.ofMillis 10) 2 }
    ({} : Streak).decisions policy [⟨5, 6⟩, ⟨7, 8⟩, ⟨70, 70⟩, ⟨900, 901⟩] =
        [↑(Duration.ofMillis 3), ↑(Duration.ofMillis 6), ↑(Duration.ofMillis 10), ⊤] ∧
      (({} : Streak).decisions policy [⟨5, 6⟩, ⟨7, 8⟩, ⟨70, 70⟩, ⟨900, 901⟩]).Pairwise (· ≤ ·) ∧
      policy.backoff.delay 4294967295 ≤ Duration.ofMillis 10 := by
  intro policy
  have hgrows : policy.backoff.Grows := by
    change (1 : UInt32) ≤ 2
    decide
  obtain ⟨_, hstreak, hbetween⟩ := retry_decisions_monotone policy hgrows
  refine ⟨rfl, hstreak {} _ (by decide), (hbetween _ _ _ rfl _).2⟩

end TopicConsumer
