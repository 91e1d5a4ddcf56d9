import Mathlib.Data.List.Basic
import TopicConsumer.Factory

namespace TopicConsumer

variable {α β : Type}

/-- The largest capacity of a queue between tasks. -/
def queueLimit : Nat := 18446744073709551615 >>> 3

namespace ConsumerOption

def size? : ConsumerOption α → Option Nat
  | buffer size => some size
  | _ => none

def decoder? : ConsumerOption α → Option (Decoder α)
  | decoder decode => some decode
  | json => some Decoder.json
  | _ => none

def start? : ConsumerOption α → Option StartOffset
  | start place => some place
  | _ => none

def mode? : ConsumerOption α → Option DecodeMode
  | decodeMode mode => some mode
  | _ => none

def policy? : ConsumerOption α → Option RetryPolicy
  | retryPolicy policy => some policy
  | _ => none

def timeout? : ConsumerOption α → Option Duration
  | sessionTimeout timeout => some timeout
  | _ => none

def setting? : ConsumerOption α → Option (String × String)
  | clientSetting key value => some (key, value)
  | sessionTimeout timeout => some (sessionTimeoutKey, toString timeout.millis)
  | _ => none

def property? (key : String) (option : ConsumerOption α) : Option String :=
  option.setting?.bind fun p => if p.1 = key then some p.2 else none

variable {option : ConsumerOption α} {options : List (ConsumerOption α)} {before after : Config α}

/-- An option that is not custom and is taken writes what it says, and leaves all else as it is. -/
theorem apply_ok (hown : ∀ name edit, option ≠ .custom name edit) (h : option.apply before = .ok after) :
    after = { before with
      bufferSize := option.size?.getD before.bufferSize
      decoder := option.decoder?.getD before.decoder
      client := (option.setting?.map fun p => Table.set p.1 p.2 before.client).getD before.client
      start := option.start?.getD before.start
      decodeMode := option.mode?.getD before.decodeMode
      retry := option.policy?.getD before.retry } := by
  cases option with
  | custom name edit => exact absurd rfl (hown name edit)
  | clientSetting | sessionTimeout | retryPolicy =>
    simp only [apply] at h
    split at h <;> cases h
    rfl
  | buffer | decoder | json | start | decodeMode =>
    cases h
    rfl

theorem attempts_of_apply {policy : RetryPolicy} (hpolicy : option.policy? = some policy)
    (h : option.apply before = .ok after) : policy.maxAttempts ≠ some 0 := by
  cases option <;> cases hpolicy
  simp only [apply] at h
  split at h
  next => simp at h
  next hattempts => exact hattempts

/-- What the last option that writes a value writes. -/
def last? (writes : ConsumerOption α → Option β) (options : List (ConsumerOption α)) : Option β :=
  (options.filterMap writes).getLast?

theorem mem_of_last? {writes : ConsumerOption α → Option β} {value : β} (h : last? writes options = some value) :
    ∃ option ∈ options, writes option = some value :=
  List.mem_filterMap.mp (List.mem_of_getLast? h)

theorem applyAll_cons (h : applyAll (option :: options) before = .ok after) :
    ∃ edited, option.apply before = .ok edited ∧ applyAll options edited = .ok after := by
  rw [applyAll] at h
  split at h
  next edited he => exact ⟨edited, he, h⟩
  next => simp at h

/-- The last option that writes a part of the configuration decides it. -/
theorem applyAll_last (part : Config α → β) (writes : ConsumerOption α → Option β)
    (hwrites : ∀ option ∈ options, ∀ before after, option.apply before = .ok after →
      part after = (writes option).getD (part before))
    (h : applyAll options before = .ok after) : part after = (last? writes options).getD (part before) := by
  induction options generalizing before with
  | nil =>
    cases h
    rfl
  | cons option options ih =>
    obtain ⟨hfirst, hrest⟩ := List.forall_mem_cons.mp hwrites
    obtain ⟨edited, he, hlater⟩ := applyAll_cons h
    rw [ih hrest hlater, hfirst before edited he, last?, last?, List.filterMap_cons]
    cases writes option with
    | none => rfl
    | some value => cases hl : (options.filterMap writes).getLast? <;> simp [List.getLast?_cons, hl]

theorem accepted_of_applyAll (h : applyAll options before = .ok after) (hm : option ∈ options) :
    ∃ before after, option.apply before = .ok after := by
  induction options generalizing before with
  | nil => simp at hm
  | cons first options ih =>
    obtain ⟨edited, he, hlater⟩ := applyAll_cons h
    rcases List.mem_cons.mp hm with rfl | hm
    · exact ⟨before, edited, he⟩
    · exact ih hlater hm

theorem applyAll_size (hown : ∀ name edit, .custom name edit ∉ options) (h : applyAll options before = .ok after) :
    after.bufferSize = (last? size? options).getD before.bufferSize := by
  refine applyAll_last Config.bufferSize size? (fun option hm before after ho => ?_) h
  rw [apply_ok (fun name edit he => hown name edit (he ▸ hm)) ho]

theorem applyAll_policy (hown : ∀ name edit, .custom name edit ∉ options)
    (h : applyAll options before = .ok after) : after.retry = (last? policy? options).getD before.retry := by
  refine applyAll_last Config.retry policy? (fun option hm before after ho => ?_) h
  rw [apply_ok (fun name edit he => hown name edit (he ▸ hm)) ho]

theorem applyAll_property (key : String) (hown : ∀ name edit, .custom name edit ∉ options)
    (h : applyAll options before = .ok after) :
    after.client.get? key = (last? (property? key) options).or (before.client.get? key) := by
  have hlast := applyAll_last (fun config => config.client.get? key)
    (fun option => (option.property? key).map some) (fun option hm before after ho => ?_) h
  · rw [hlast, last?, last?, ← List.map_filterMap, List.getLast?_map]
    cases (options.filterMap (property? key)).getLast? <;> rfl
  · rw [apply_ok (fun name edit he => hown name edit (he ▸ hm)) ho, property?]
    cases hs : option.setting? with
    | none => rfl
    | some p =>
      by_cases hk : p.1 = key
      · simp [Table.get?_set, hk]
      · simp [Table.get?_set, hk, Ne.symm hk]

end ConsumerOption

open ConsumerOption

namespace Factory

variable {factory : Factory α} {config : Config α}

/-- The session timeout of a configuration: what was chosen last, in whole milliseconds, or else the default. -/
theorem config_timeout (hown : ∀ name edit, .custom name edit ∉ factory.options)
    (hkeys : ∀ value, .clientSetting sessionTimeoutKey value ∉ factory.options) (h : factory.config = .ok config) :
    config.client.get? sessionTimeoutKey =
      some (toString (((last? timeout? factory.options).map Duration.millis).getD defaultSessionTimeout)) := by
  have hwrites : ∀ option ∈ factory.options,
      option.property? sessionTimeoutKey = option.timeout?.map fun chosen => toString chosen.millis := by
    intro option hm
    cases option with
    | clientSetting key value =>
      have hkey : key ≠ sessionTimeoutKey := fun he => hkeys value (he ▸ hm)
      simp [property?, setting?, timeout?, hkey]
    | sessionTimeout => simp [property?, setting?, timeout?]
    | buffer | decoder | json | start | decodeMode | retryPolicy | custom => rfl
  have hlast : last? (property? sessionTimeoutKey) factory.options =
      (last? timeout? factory.options).map fun chosen => toString chosen.millis := by
    rw [last?, last?, List.filterMap_congr hwrites, ← List.map_filterMap, List.getLast?_map]
  have hdefault : factory.baseConfig.client.get? sessionTimeoutKey = some (toString defaultSessionTimeout) := rfl
  rw [applyAll_property sessionTimeoutKey hown h, hlast, hdefault]
  cases last? timeout? factory.options <;> rfl

theorem baseConfig_size (factory : Factory α) : factory.baseConfig.bufferSize ≤ queueLimit := by
  have hgroup : groupBuffer ≤ queueLimit := by decide
  have hdirect : directBuffer ≤ queueLimit := by decide
  unfold baseConfig
  split
  next => exact hgroup
  next => exact hdirect

end Factory

theorem millis_pos_iff (timeout : Duration) : 1 ≤ timeout.millis ↔ 1000000 ≤ timeout.nanos := by
  unfold Duration.millis
  omega

/-- A configuration that the options of the library make has a retry policy that allows an attempt and queues that
hold something. Its session timeout is an integer of at least one exactly if the timeout chosen last is not shorter
than a millisecond, and its queues are not too large exactly if the buffer chosen last is not. -/
theorem accepted_config_runs_unless (factory : Factory α) {config : Config α}
    (hown : ∀ name edit, .custom name edit ∉ factory.options)
    (hkeys : ∀ value, .clientSetting sessionTimeoutKey value ∉ factory.options)
    (h : factory.config = .ok config) :
    let timeout := last? timeout? factory.options
    let property := config.client.get? sessionTimeoutKey
    property = some (toString ((timeout.map Duration.millis).getD defaultSessionTimeout)) ∧
      ((∃ n, 1 ≤ n ∧ property = some (toString n)) ↔ ∀ chosen, timeout = some chosen → 1000000 ≤ chosen.nanos) ∧
      (∀ attempts, config.retry.maxAttempts = some attempts → 1 ≤ attempts.toNat) ∧
      1 ≤ config.queueCapacity ∧
      (config.queueCapacity ≤ queueLimit ↔ ∀ size, last? size? factory.options = some size → size ≤ queueLimit) := by
  intro timeout property
  have hproperty : property = some (toString ((timeout.map Duration.millis).getD defaultSessionTimeout)) :=
    Factory.config_timeout hown hkeys h
  refine ⟨hproperty, ?_, ?_, ?_, ?_⟩
  · have hpositive : (∃ n, 1 ≤ n ∧ property = some (toString n)) ↔
        1 ≤ (timeout.map Duration.millis).getD defaultSessionTimeout := by
      rw [hproperty]
      constructor
      · rintro ⟨n, hn, he⟩
        have hread := congrArg (fun digits : String => Nat.ofDigitChars 10 digits.toList 0) (Option.some.inj he)
        simp only [Nat.toString_eq_repr, Nat.toList_repr, Nat.ofDigitChars_ten_toDigits] at hread
        exact hread ▸ hn
      · exact fun hn => ⟨_, hn, rfl⟩
    rw [hpositive]
    cases timeout with
    | none => simp [defaultSessionTimeout]
    | some chosen => simp [millis_pos_iff]
  · intro attempts hattempts
    rw [applyAll_policy hown h] at hattempts
    cases hlast : last? policy? factory.options with
    | none => simp [hlast, Factory.baseConfig, RetryPolicy.forever] at hattempts
    | some policy =>
      obtain ⟨option, hm, hpolicy⟩ := mem_of_last? hlast
      obtain ⟨before, after, happly⟩ := accepted_of_applyAll h hm
      have hallowed := attempts_of_apply hpolicy happly
      rw [hlast, Option.getD_some] at hattempts
      refine Nat.one_le_iff_ne_zero.mpr fun hzero => hallowed ?_
      rw [hattempts, show attempts = 0 from UInt32.toNat_inj.mp hzero]
  · exact Nat.le_max_right _ _
  · have hone : 1 ≤ queueLimit := by decide
    have hbase := factory.baseConfig_size
    rw [Config.queueCapacity, Nat.max_le, applyAll_size hown h]
    cases last? size? factory.options with
    | none => simp [hone, hbase]
    | some size => simp [hone]

/-- A timeout that is too short and a buffer that is too large, each replaced by a later option. -/
theorem replaced_choices_run :
    let factory : Factory Nat :=
      ⟨"svc", some "g", "t", ["b1"], Decoder.length,
        [.sessionTimeout (Duration.ofNanos 1), .buffer 18446744073709551615, .clientSetting "fetch.min.bytes" "0",
          .retryPolicy { maxAttempts := some 3 }, .sessionTimeout (Duration.ofMillis 30000), .buffer 0]⟩
    ∃ config, factory.config = .ok config ∧ config.client.get? sessionTimeoutKey = some "30000" ∧
      (∃ n, 1 ≤ n ∧ config.client.get? sessionTimeoutKey = some (toString n)) ∧
      (∀ attempts, config.retry.maxAttempts = some attempts → 1 ≤ attempts.toNat) ∧
      1 ≤ config.queueCapacity ∧ config.queueCapacity ≤ queueLimit := by
  intro factory
  have hmade : ∃ config, factory.config = .ok config := ⟨_, rfl⟩
  obtain ⟨config, hconfig⟩ := hmade
  obtain ⟨hproperty, htimeout, hattempts, hpositive, hlimit⟩ :=
    accepted_config_runs_unless factory (by simp [factory]) (by simp [factory, sessionTimeoutKey]) hconfig
  have hchosen : last? timeout? factory.options = some (Duration.ofMillis 30000) := rfl
  refine ⟨config, hconfig, ?_, htimeout.mpr ?_, hattempts, hpositive, hlimit.mpr ?_⟩
  · rw [hproperty, hchosen]
    rfl
  · intro chosen hlast
    cases hlast
    decide
  · intro size hlast
    cases hlast
    decide

/-- A session timeout of one nanosecond and a buffer of one more than a queue can have are taken. The timeout is
written as zero milliseconds. -/
theorem unusable_choices_accepted :
    let factory : Factory Nat :=
      ⟨"svc", none, "t", ["b1"], Decoder.length,
        [.sessionTimeout (Duration.ofNanos 1), .buffer 2305843009213693952]⟩
    factory.check = .ok factory ∧ ∃ config, factory.config = .ok config ∧
      config.client.get? sessionTimeoutKey = some (toString 0) ∧ queueLimit < config.queueCapacity := by
  intro factory
  exact ⟨rfl, _, rfl, rfl, by decide⟩

end TopicConsumer
