import TopicConsumer.Consumer
import TopicConsumer.Proofs.FactoryStrategy

namespace TopicConsumer

namespace Table

variable {κ β : Type} [DecidableEq κ]

theorem get?_eq_none {table : Table κ β} {key : κ} (h : key ∉ table.map Prod.fst) : table.get? key = none := by
  induction table with
  | nil => rfl
  | cons p rest ih =>
    rw [List.map_cons, List.mem_cons, not_or] at h
    obtain ⟨hne, hrest⟩ := h
    rw [get?, if_neg (Ne.symm hne), ih hrest]

/-- Keys that are set one after the other have their new values, and all others what they had. -/
theorem get?_foldl_set (pairs table : Table κ β) (hkeys : (pairs.map Prod.fst).Nodup) (key : κ) :
    get? key (pairs.foldl (fun table p => set p.1 p.2 table) table) = (pairs.get? key).or (table.get? key) := by
  induction pairs generalizing table with
  | nil => rfl
  | cons p rest ih =>
    obtain ⟨hfresh, hrest⟩ := List.nodup_cons.mp hkeys
    rw [List.foldl_cons, ih (set p.1 p.2 table) hrest, get?_set, get?]
    by_cases he : p.1 = key
    · subst he
      simp [get?_eq_none hfresh]
    · rw [if_neg he, if_neg (Ne.symm he)]

end Table

variable {α : Type}

theorem Settings.get?_withStatistics (settings : Settings) (key : String) :
    settings.withStatistics.get? key =
      if key = statisticsKey then some ((settings.get? statisticsKey).getD "1000") else settings.get? key := by
  unfold withStatistics
  split
  next hset =>
    obtain ⟨value, hvalue⟩ := Option.isSome_iff_exists.mp hset
    split
    next hkey => rw [hkey, hvalue, Option.getD_some]
    next => rfl
  next hunset =>
    rw [Table.get?_set, Option.not_isSome_iff_eq_none.mp hunset]
    rfl

namespace Blueprint

def group? : Blueprint α → Option String
  | grouped group _ => some group
  | direct _ => none

/-- The properties that the strategy of a consumer decides. -/
def decided : Blueprint α → Settings
  | grouped group config =>
    [("bootstrap.servers", config.bootstrap), ("group.id", group), ("auto.offset.reset", config.start.name),
      ("enable.auto.commit", "true"), ("enable.auto.offset.store", "false")]
  | direct config => [("bootstrap.servers", config.bootstrap), ("enable.auto.commit", "false")]

def settings : Blueprint α → Settings
  | grouped group config => config.groupClient group
  | direct config => config.directClient

/-- The properties of the client of a consumer. -/
def properties (blueprint : Blueprint α) : Settings := blueprint.settings.withStatistics

theorem decided_keys_nodup (blueprint : Blueprint α) : (blueprint.decided.map Prod.fst).Nodup := by
  cases blueprint <;> simp [decided]

theorem get?_settings (blueprint : Blueprint α) (key : String) :
    blueprint.settings.get? key = (blueprint.decided.get? key).or (blueprint.config.client.get? key) := by
  have hset : blueprint.settings =
      blueprint.decided.foldl (fun table p => Table.set p.1 p.2 table) blueprint.config.client := by
    cases blueprint <;> rfl
  rw [hset]
  exact Table.get?_foldl_set _ _ blueprint.decided_keys_nodup key

theorem statistics_undecided (blueprint : Blueprint α) : Settings.statisticsKey ∉ blueprint.decided.map Prod.fst := by
  cases blueprint <;> simp [decided, Settings.statisticsKey]

/-- What starting a consumer comes to at a cluster that never answers, once its client is open. -/
def unanswered : Blueprint α → Except Failure Nat
  | grouped _ config => .ok config.queueCapacity
  | direct _ => .error (.kafka (.metadata .transport))

/-- A client is created of the properties of its consumer, whatever creates it. -/
theorem start_silent (w : World α) (blueprint : Blueprint α) (create : Settings → Except Failure Unit)
    (token : Token) :
    (Consumer.start w { blueprint := blueprint, connector := .silent create } token).1 =
      (create blueprint.properties).bind fun _ => blueprint.unanswered := by
  cases blueprint with
  | grouped group config =>
    simp only [Consumer.start, Environment.openGroup, properties, settings, Blueprint.config]
    cases create (config.groupClient group).withStatistics <;> rfl
  | direct config =>
    simp only [Consumer.start, Environment.openDirect, properties, settings, Blueprint.config]
    cases create config.directClient.withStatistics with
    | error => rfl
    | ok =>
      simp [Consumer.openReaders, Environment.partitions, DirectClient.unanswered]
      rfl

end Blueprint

theorem Factory.create_ok {factory : Factory α} {blueprint : Blueprint α} (h : factory.create = .ok blueprint) :
    factory.config = .ok blueprint.config ∧ blueprint.group? = factory.group := by
  cases hconfig : factory.config with
  | error failure =>
    rw [create, hconfig] at h
    cases h
  | ok config =>
    rw [create_of_config hconfig] at h
    cases hgroup : factory.group <;> rw [hgroup] at h <;> cases h <;> exact ⟨rfl, rfl⟩

/-- Whatever the options of a factory do, the client of its consumer is opened with the properties that the
strategy decides. The interval of statistics is what the options leave or one second, and any other property is
what the options leave. -/
theorem client_properties_decided (factory : Factory α) {blueprint : Blueprint α}
    (h : factory.create = .ok blueprint) :
    factory.config = .ok blueprint.config ∧ blueprint.group? = factory.group ∧
      (∀ w create token, (Consumer.start w { blueprint := blueprint, connector := .silent create } token).1 =
        (create blueprint.properties).bind fun _ => blueprint.unanswered) ∧
      (∀ p ∈ blueprint.decided, blueprint.properties.get? p.1 = some p.2) ∧
      blueprint.properties.get? Settings.statisticsKey =
        some ((blueprint.config.client.get? Settings.statisticsKey).getD "1000") ∧
      ∀ key, key ≠ Settings.statisticsKey → key ∉ blueprint.decided.map Prod.fst →
        blueprint.properties.get? key = blueprint.config.client.get? key := by
  obtain ⟨hconfig, hgroup⟩ := Factory.create_ok h
  refine ⟨hconfig, hgroup, fun w create token => blueprint.start_silent w create token, ?_, ?_, ?_⟩
  · intro p hp
    have hne : p.1 ≠ Settings.statisticsKey := fun he =>
      blueprint.statistics_undecided (he ▸ List.mem_map_of_mem hp)
    have hvalue : blueprint.decided.get? p.1 = some p.2 := (Table.mem_iff_get? blueprint.decided_keys_nodup).mp hp
    rw [Blueprint.properties, Settings.get?_withStatistics, if_neg hne, blueprint.get?_settings, hvalue,
      Option.some_or]
  · rw [Blueprint.properties, Settings.get?_withStatistics, if_pos rfl, blueprint.get?_settings,
      Table.get?_eq_none blueprint.statistics_undecided, Option.none_or]
  · intro key hne hfree
    rw [Blueprint.properties, Settings.get?_withStatistics, if_neg hne, blueprint.get?_settings,
      Table.get?_eq_none hfree, Option.none_or]

/-- A member whose options ask for stored offsets, another group and rarer statistics, and add a broker. -/
theorem stored_offsets_refused :
    let factory : Factory Nat :=
      ⟨"svc", some "g", "t", ["b1"], Decoder.length,
        [.clientSetting "enable.auto.offset.store" "true", .clientSetting "group.id" "other",
          .clientSetting Settings.statisticsKey "5000", .custom "extend" (ConfigEdit.apply { broker := some "b2" })]⟩
    ∃ blueprint, factory.create = .ok blueprint ∧
      blueprint.properties.get? "bootstrap.servers" = some "b1,b2" ∧
      blueprint.properties.get? "group.id" = some "g" ∧
      blueprint.properties.get? "enable.auto.offset.store" = some "false" ∧
      blueprint.properties.get? Settings.statisticsKey = some "5000" ∧
      blueprint.properties.get? "client.id" = some "svc" := by
  intro factory
  let config : Config Nat :=
    { factory.baseConfig with
      brokers := ["b1", "b2"]
      client := [("client.id", "svc"), (sessionTimeoutKey, "6000"), ("enable.partition.eof", "false"),
        ("enable.auto.offset.store", "true"), ("group.id", "other"), (Settings.statisticsKey, "5000")] }
  have hcreate : factory.create = .ok (.grouped "g" config) := rfl
  obtain ⟨_, _, _, hdecided, hstatistics, hother⟩ := client_properties_decided factory hcreate
  refine ⟨_, hcreate, ?_, ?_, ?_, hstatistics.trans rfl, ?_⟩
  · exact hdecided ("bootstrap.servers", "b1,b2") List.mem_cons_self
  · exact hdecided ("group.id", "g") (by simp [Blueprint.decided])
  · exact hdecided ("enable.auto.offset.store", "false") (by simp [Blueprint.decided])
  · exact hother "client.id" (by decide) (by simp [Blueprint.decided])

end TopicConsumer
