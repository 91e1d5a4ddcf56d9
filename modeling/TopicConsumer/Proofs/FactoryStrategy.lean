import TopicConsumer.Factory

namespace TopicConsumer

variable {α : Type}

namespace ConsumerOption

/-- Whatever configuration the option makes has the group of the one before. -/
def KeepsGroup (option : ConsumerOption α) : Prop :=
  ∀ before after, option.apply before = .ok after → after.group = before.group

theorem keepsGroup_of_custom {option : ConsumerOption α}
    (hcustom : ∀ name edit, option = .custom name edit → option.KeepsGroup) : option.KeepsGroup := by
  intro before after h
  cases option with
  | buffer | decoder | json | start | decodeMode =>
    simp only [apply] at h
    cases h
    rfl
  | clientSetting | sessionTimeout | retryPolicy =>
    simp only [apply] at h
    split at h
    next => simp at h
    next =>
      cases h
      rfl
  | custom name edit => exact hcustom name edit rfl before after h

theorem applyAll_group {options : List (ConsumerOption α)} {before after : Config α}
    (hkeep : ∀ option ∈ options, option.KeepsGroup) (h : applyAll options before = .ok after) :
    after.group = before.group := by
  induction options generalizing before with
  | nil =>
    cases h
    rfl
  | cons option options ih =>
    obtain ⟨hfirst, hrest⟩ := List.forall_mem_cons.mp hkeep
    rw [applyAll] at h
    split at h
    next edited he => rw [ih hrest h, hfirst before edited he]
    next => simp at h

end ConsumerOption

theorem Factory.create_of_config {factory : Factory α} {config : Config α} (h : factory.config = .ok config) :
    factory.create = .ok (match factory.group with
      | some group => .grouped group config
      | none => .direct config) := by
  simp only [create, h]
  rfl

/-- A consumer is a member of the factory's group, or reads every partition if the factory has none, whatever the
options do to the group of the configuration. So its strategy is the configuration's exactly if the options
leave the group as the factory has it, which all of them do that are not custom. -/
theorem strategy_of_factory_group (factory : Factory α) {config : Config α} (h : factory.config = .ok config) :
    (∀ group, factory.create = .ok (.grouped group config) ↔ factory.group = some group) ∧
      (factory.create = .ok (.direct config) ↔ factory.group = none) ∧
      (factory.create = .ok (Blueprint.ofConfig config) ↔ config.group = factory.group) ∧
      ((∀ name edit, .custom name edit ∈ factory.options → (ConsumerOption.custom name edit).KeepsGroup) →
        config.group = factory.group) := by
  have hcreate := Factory.create_of_config h
  refine ⟨?_, ?_, ?_, ?_⟩
  · intro group
    rw [hcreate]
    cases factory.group <;> simp
  · rw [hcreate]
    cases factory.group <;> simp
  · rw [hcreate, Blueprint.ofConfig]
    cases factory.group <;> cases config.group <;> simp [eq_comm]
  · intro hcustom
    have hkeep : ∀ option ∈ factory.options, option.KeepsGroup := by
      intro option hm
      refine ConsumerOption.keepsGroup_of_custom fun name edit he => ?_
      exact he ▸ hcustom name edit (he ▸ hm)
    exact ConsumerOption.applyAll_group hkeep h

/-- A factory for a member of a group with one more broker from a custom option. -/
theorem extended_member_keeps_strategy :
    let extend : Config Nat → Except String (Config Nat) := ConfigEdit.apply { broker := some "b2" }
    let factory : Factory Nat := ⟨"svc", some "g", "t", ["b1"], Decoder.length, [.buffer 5, .custom "extend" extend]⟩
    ∃ config, factory.config = .ok config ∧ config.brokers = ["b1", "b2"] ∧
      factory.create = .ok (Blueprint.ofConfig config) := by
  intro extend factory
  have hlaw := strategy_of_factory_group factory rfl
  refine ⟨_, rfl, rfl, hlaw.2.2.1.mpr (hlaw.2.2.2 ?_)⟩
  intro name edit hm before after he
  have hcustom : ConsumerOption.custom name edit = .custom "extend" extend := by simpa [factory] using hm
  cases hcustom
  cases he
  rfl

/-- A custom option that sets a group does not make a member of it: the consumer reads every partition. -/
theorem custom_group_not_joined :
    let factory : Factory Nat :=
      ⟨"svc", none, "t", ["memory"], Decoder.length, [.custom "join" (ConfigEdit.apply { group := some (some "g") })]⟩
    factory.check = .ok factory ∧ ∃ config, factory.config = .ok config ∧ config.group = some "g" ∧
      factory.create = .ok (.direct config) ∧ factory.create ≠ .ok (.grouped "g" config) := by
  intro factory
  refine ⟨rfl, _, rfl, rfl, rfl, ?_⟩
  intro h
  cases h

end TopicConsumer
