import TopicConsumer.Proofs.AcceptedConfigs

namespace TopicConsumer

variable {α β : Type}

namespace ConsumerOption

/-- Why the arguments of an option are refused, whatever it is applied to. -/
def refusal? : ConsumerOption α → Option String
  | clientSetting key value =>
    if key = "" ∨ value = "" then some "client setting key and value must not be empty" else none
  | sessionTimeout timeout => if timeout = Duration.zero then some "session timeout must be positive" else none
  | retryPolicy policy =>
    if policy.maxAttempts = some 0 then some "retry policy must allow at least one attempt" else none
  | _ => none

def fault? (option : ConsumerOption α) : Option Failure := option.refusal?.map (.option option.name)

inductive Target where
  | size
  | decoder
  | start
  | mode
  | retry
  | property (key : String)
deriving DecidableEq

def target? : ConsumerOption α → Option Target
  | buffer _ => some .size
  | decoder _ => some .decoder
  | json => some .decoder
  | start _ => some .start
  | clientSetting key _ => some (.property key)
  | sessionTimeout _ => some (.property sessionTimeoutKey)
  | decodeMode _ => some .mode
  | retryPolicy _ => some .retry
  | custom _ _ => none

def writing (target : Target) (options : List (ConsumerOption α)) : List (ConsumerOption α) :=
  options.filter fun option => option.target? = some target

/-- The same options, of which those that write one part are in the same order. -/
structure Reordered (options others : List (ConsumerOption α)) : Prop where
  perm : options.Perm others
  kept : ∀ target, writing target options = writing target others

variable {option : ConsumerOption α} {options others : List (ConsumerOption α)} {before after : Config α}

theorem apply_eq_error (hown : ∀ name edit, option ≠ .custom name edit) {reason : String} :
    option.apply before = .error reason ↔ option.refusal? = some reason := by
  cases option with
  | custom name edit => exact absurd rfl (hown name edit)
  | clientSetting | sessionTimeout | retryPolicy =>
    simp only [apply, refusal?]
    split <;> simp
  | buffer | decoder | json | start | decodeMode => simp [apply, refusal?]

theorem applyAll_first_fault (hown : ∀ name edit, .custom name edit ∉ options) {failure : Failure} :
    applyAll options before = .error failure ↔ options.findSome? fault? = some failure := by
  induction options generalizing before with
  | nil => simp [applyAll]
  | cons option options ih =>
    have hfirst : ∀ name edit, option ≠ .custom name edit := fun name edit he => hown name edit (by simp [he])
    have hrest : ∀ name edit, .custom name edit ∉ options := fun name edit hm =>
      hown name edit (List.mem_cons_of_mem _ hm)
    rw [applyAll, List.findSome?_cons, fault?]
    cases happly : option.apply before with
    | error reason => simp [(apply_eq_error hfirst).mp happly, eq_comm]
    | ok edited =>
      have hnone : option.refusal? = none := by
        refine Option.eq_none_iff_forall_ne_some.mpr fun reason hr => ?_
        have herror : option.apply before = .error reason := (apply_eq_error hfirst).mpr hr
        rw [happly] at herror
        cases herror
      simp only [hnone, Option.map_none]
      exact ih hrest

theorem applyAll_kept (part : Config α → β)
    (hkept : ∀ option ∈ options, ∀ before after, option.apply before = .ok after → part after = part before)
    (h : applyAll options before = .ok after) : part after = part before := by
  have hlast := applyAll_last part (fun _ => none) hkept h
  rw [last?, List.filterMap_eq_nil_iff.mpr fun _ _ => rfl] at hlast
  exact hlast

/-- What a configuration has after options of the library were taken. -/
structure LastWritten (options : List (ConsumerOption α)) (before after : Config α) : Prop where
  brokers : after.brokers = before.brokers
  topic : after.topic = before.topic
  group : after.group = before.group
  size : after.bufferSize = (last? size? options).getD before.bufferSize
  decoder : after.decoder = (last? decoder? options).getD before.decoder
  start : after.start = (last? start? options).getD before.start
  mode : after.decodeMode = (last? mode? options).getD before.decodeMode
  retry : after.retry = (last? policy? options).getD before.retry
  property : ∀ key, after.client.get? key = (last? (property? key) options).or (before.client.get? key)

theorem applyAll_lastWritten (hown : ∀ name edit, .custom name edit ∉ options)
    (h : applyAll options before = .ok after) : LastWritten options before after := by
  refine ⟨applyAll_kept Config.brokers ?_ h, applyAll_kept Config.topic ?_ h, applyAll_kept Config.group ?_ h,
    applyAll_size hown h, applyAll_last Config.decoder decoder? ?_ h, applyAll_last Config.start start? ?_ h,
    applyAll_last Config.decodeMode mode? ?_ h, applyAll_policy hown h, fun key => applyAll_property key hown h⟩
  all_goals
    intro option hm before after ho
    rw [apply_ok (fun name edit he => hown name edit (he ▸ hm)) ho]

theorem last?_writing {writes : ConsumerOption α → Option β} {target : Target}
    (hwrites : ∀ option, option.target? ≠ some target → writes option = none) (options : List (ConsumerOption α)) :
    last? writes (writing target options) = last? writes options := by
  -- The options of other parts write nothing here, so leaving them out changes nothing.
  rw [last?, last?, writing, List.filterMap_filter]
  refine congrArg List.getLast? (List.filterMap_congr fun option _ => ?_)
  by_cases ht : option.target? = some target
  · simp [ht]
  · simp [ht, hwrites option ht]

theorem Reordered.last_eq (h : Reordered options others) {writes : ConsumerOption α → Option β} {target : Target}
    (hwrites : ∀ option, option.target? ≠ some target → writes option = none) :
    last? writes others = last? writes options := by
  rw [← last?_writing hwrites options, ← last?_writing hwrites others, h.kept target]

theorem property?_eq_none {key : String} (h : option.target? ≠ some (.property key)) : option.property? key = none := by
  have hother {name : String} (ht : option.target? = some (.property name)) : name ≠ key := fun he => h (he ▸ ht)
  cases option with
  | clientSetting | sessionTimeout => simp [property?, setting?, hother rfl]
  | buffer | decoder | json | start | decodeMode | retryPolicy | custom => rfl

theorem Reordered.parts_eq (h : Reordered options others) :
    last? size? others = last? size? options ∧ last? decoder? others = last? decoder? options ∧
      last? start? others = last? start? options ∧ last? mode? others = last? mode? options ∧
      last? policy? others = last? policy? options ∧
      ∀ key, last? (property? key) others = last? (property? key) options := by
  have hsize (option : ConsumerOption α) (ht : option.target? ≠ some .size) : option.size? = none := by
    cases option with
    | buffer => exact absurd rfl ht
    | _ => rfl
  have hdecoder (option : ConsumerOption α) (ht : option.target? ≠ some .decoder) : option.decoder? = none := by
    cases option with
    | decoder | json => exact absurd rfl ht
    | _ => rfl
  have hstart (option : ConsumerOption α) (ht : option.target? ≠ some .start) : option.start? = none := by
    cases option with
    | start => exact absurd rfl ht
    | _ => rfl
  have hmode (option : ConsumerOption α) (ht : option.target? ≠ some .mode) : option.mode? = none := by
    cases option with
    | decodeMode => exact absurd rfl ht
    | _ => rfl
  have hretry (option : ConsumerOption α) (ht : option.target? ≠ some .retry) : option.policy? = none := by
    cases option with
    | retryPolicy => exact absurd rfl ht
    | _ => rfl
  exact ⟨h.last_eq hsize, h.last_eq hdecoder, h.last_eq hstart, h.last_eq hmode, h.last_eq hretry,
    fun key => h.last_eq fun option => property?_eq_none⟩

end ConsumerOption

open ConsumerOption

/-- The same configuration, apart from the order in which its properties are listed. -/
structure Config.Same (config other : Config α) : Prop where
  brokers : other.brokers = config.brokers
  topic : other.topic = config.topic
  group : other.group = config.group
  size : other.bufferSize = config.bufferSize
  decoder : other.decoder = config.decoder
  start : other.start = config.start
  mode : other.decodeMode = config.decodeMode
  retry : other.retry = config.retry
  property : ∀ key, other.client.get? key = config.client.get? key

namespace ConsumerOption

variable {options others : List (ConsumerOption α)} {before after : Config α}

theorem Reordered.same (h : Reordered options others) (hown : ∀ name edit, .custom name edit ∉ options)
    (happly : applyAll options before = .ok after) :
    ∃ other, applyAll others before = .ok other ∧ after.Same other := by
  have hown' : ∀ name edit, .custom name edit ∉ others := fun name edit hm => hown name edit (h.perm.mem_iff.mpr hm)
  cases hother : applyAll others before with
  | error failure =>
    obtain ⟨option, hm, hfault⟩ := List.exists_of_findSome?_eq_some ((applyAll_first_fault hown').mp hother)
    cases hfirst : options.findSome? fault? with
    | none =>
      have hnone := List.findSome?_eq_none_iff.mp hfirst option (h.perm.mem_iff.mpr hm)
      simp [hnone] at hfault
    | some first =>
      have herror : applyAll options before = .error first := (applyAll_first_fault hown).mpr hfirst
      simp [happly] at herror
  | ok other =>
    have hw := applyAll_lastWritten hown happly
    have hw' := applyAll_lastWritten hown' hother
    obtain ⟨hsize, hdecoder, hstart, hmode, hretry, hproperty⟩ := h.parts_eq
    refine ⟨other, rfl, hw'.brokers.trans hw.brokers.symm, hw'.topic.trans hw.topic.symm,
      hw'.group.trans hw.group.symm, ?_, ?_, ?_, ?_, ?_, fun key => ?_⟩
    · rw [hw'.size, hw.size, hsize]
    · rw [hw'.decoder, hw.decoder, hdecoder]
    · rw [hw'.start, hw.start, hstart]
    · rw [hw'.mode, hw.mode, hmode]
    · rw [hw'.retry, hw.retry, hretry]
    · rw [hw'.property, hw.property, hproperty]

end ConsumerOption

end TopicConsumer
