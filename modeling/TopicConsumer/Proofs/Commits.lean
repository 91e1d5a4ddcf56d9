import TopicConsumer.Proofs.Delivery

namespace TopicConsumer

open Environment

variable {α : Type} {topic : String}

structure RunNote.Continues (b : Broker) (group : String) (old note : RunNote α) : Prop where
  start : note.start = old.start
  sent : ∀ m ∈ old.sent, m ∈ note.sent
  claimed : ∀ s ∈ note.sessions, ∀ claim ∈ s.claimed, (∃ s' ∈ old.sessions, claim ∈ s'.claimed) ∨
    claim.2 = b.groupPosition group claim.1 old.start

namespace RunNote

variable {env : Environment} {note : RunNote α} {run next : GroupRun α}

theorem Continues.of_sessions {b : Broker} {group : String} {later : RunNote α}
    (hs : later.start = note.start) (h : later.sessions = note.sessions) : Continues b group note later where
  start := hs
  sent m hm := by
    rw [RunNote.sent, h]
    exact hm
  claimed s hm claim hc := .inl ⟨s, h ▸ hm, hc⟩

theorem continues_observe : Continues env.broker run.group note (note.observe env run next) := by
  have hmade : ∀ before after, ∀ claim ∈ note.made env.broker run.group before after,
      claim.2 = env.broker.groupPosition run.group claim.1 note.start := by
    intro before after claim hm
    obtain ⟨_, _, rfl⟩ := List.mem_map.mp hm
    rfl
  unfold observe
  dsimp only
  split
  next =>
    refine ⟨rfl, fun m hm => ?_, fun s hs claim hc => ?_⟩
    · obtain ⟨b, hb, hm⟩ := List.mem_flatMap.mp hm
      exact List.mem_flatMap.mpr ⟨b, List.mem_append_left _ hb, hm⟩
    · rcases List.mem_append.mp hs with hs | hs
      · exact .inl ⟨s, hs, hc⟩
      · cases List.mem_singleton.mp hs
        exact .inr (hmade run.claims next.claims claim (by simpa [SessionNote.extend, made] using hc))
  next =>
    refine ⟨rfl, fun m hm => ?_, fun s hs claim hc => ?_⟩
    · rw [sent_current]
      have hm : m ∈ note.past.flatMap (·.sent) ++ note.current.sent := by
        rw [← sent_current note.current]
        exact hm
      rcases List.mem_append.mp hm with hm | hm
      · exact List.mem_append_left _ hm
      · exact List.mem_append_right _ (List.mem_append_left _ hm)
    · rcases List.mem_append.mp hs with hs | hs
      · exact .inl ⟨s, List.mem_append_left _ hs, hc⟩
      · cases List.mem_singleton.mp hs
        rcases List.mem_append.mp hc with hc | hc
        · exact .inl ⟨note.current, by simp [sessions], hc⟩
        · exact .inr (hmade _ _ claim hc)

end RunNote

theorem Broker.committedOffset_accept (b : Broker) (ack : Ack) (group : String) (key : PartitionKey) :
    (b.accept ack).committedOffset group key =
      if ack.group = group ∧ (ack.topic, ack.partition) = key then
        some (max ((b.committedOffset group key).getD 0) (ack.offset + 1))
      else b.committedOffset group key := by
  unfold Broker.accept Broker.committedOffset
  rw [Table.get?_set]
  by_cases h : ack.group = group ∧ (ack.topic, ack.partition) = key
  · obtain ⟨rfl, rfl⟩ := h
    simp
  · have hn : (group, key) ≠ (ack.group, ack.topic, ack.partition) := by
      intro he
      cases he
      exact h ⟨rfl, rfl⟩
    rw [if_neg h, if_neg hn]

namespace Chronicle

variable {c d : Chronicle α} {group : String} {key : PartitionKey}

/-- A member of a group has queued a message of the record at an offset. -/
def Queued (c : Chronicle α) (group : String) (key : PartitionKey) (offset : Int) : Prop :=
  ∃ (i : Nat) (run : GroupRun α) (note : RunNote α), c.world.groups[i]? = some run ∧
    c.notes[i]? = some note ∧ run.group = group ∧ ∃ m ∈ note.sent, m.place = key ∧ m.offset = offset

def QueuedBelow (c : Chronicle α) (group : String) (key : PartitionKey) (first : Int) : Prop :=
  ∀ offset, 0 ≤ offset → offset < first → c.Queued group key offset

/-- The members of a group start at the beginning, and what was queued covers everything below the places
where they claimed a partition and below what they committed. -/
structure Covered (group : String) (key : PartitionKey) (c : Chronicle α) : Prop where
  early : ∀ (i : Nat) (run : GroupRun α) (note : RunNote α), c.world.groups[i]? = some run →
    c.notes[i]? = some note → run.group = group → note.start = .earliest
  claimed : ∀ (i : Nat) (run : GroupRun α) (note : RunNote α), c.world.groups[i]? = some run →
    c.notes[i]? = some note → run.group = group → ∀ b ∈ note.sessions, ∀ first, (key, first) ∈ b.claimed →
      c.QueuedBelow group key first
  committed : ∀ v, c.world.env.broker.committedOffset group key = some v → c.QueuedBelow group key v

theorem Turn.continues {a : Act α} (ht : Turn topic c a d) (hp : c.notes.length = c.world.groups.length)
    {i : Nat} {run : GroupRun α} {note : RunNote α} (hr : c.world.groups[i]? = some run)
    (hn : c.notes[i]? = some note) :
    ∃ after later, d.world.groups[i]? = some after ∧ d.notes[i]? = some later ∧ after.group = run.group ∧
      note.Continues c.world.env.broker run.group later := by
  have hi : i < c.world.groups.length := (List.getElem?_eq_some_iff.mp hr).1
  have hrefl : note.Continues c.world.env.broker run.group note := .of_sessions rfl rfl
  cases ht with
  | aside => exact ⟨run, note, hr, hn, rfl, hrefl⟩
  | acknowledged => exact ⟨run, note, hr, hn, rfl, hrefl⟩
  | @stepped j before env next hj hs =>
    by_cases he : j = i
    · subst he
      cases Option.some.inj (hj.symm.trans hr)
      exact ⟨next, note.observe c.world.env run next, List.getElem?_set_self hi, by simp [hn],
        congrArg Subscription.group hs.subscription, RunNote.continues_observe⟩
    · exact ⟨run, note, (List.getElem?_set_ne he).trans hr, by simp [he, hn], rfl, hrefl⟩
  | begun =>
    exact ⟨run, note, (List.getElem?_append_left hi).trans hr, (List.getElem?_append_left (hp ▸ hi)).trans hn,
      rfl, hrefl⟩
  | @received j before message messages hj =>
    by_cases he : j = i
    · subst he
      cases Option.some.inj (hj.symm.trans hr)
      exact ⟨_, { note with received := note.received ++ [message] }, List.getElem?_set_self hi, by simp [hn],
        rfl, .of_sessions rfl rfl⟩
    · exact ⟨run, note, (List.getElem?_set_ne he).trans hr, by simp [he, hn], rfl, hrefl⟩
  | @dropped j before hj =>
    by_cases he : j = i
    · subst he
      cases Option.some.inj (hj.symm.trans hr)
      exact ⟨_, note, List.getElem?_set_self hi, hn, rfl, hrefl⟩
    · exact ⟨run, note, (List.getElem?_set_ne he).trans hr, hn, rfl, hrefl⟩

theorem Turn.begins {a : Act α} (ht : Turn topic c a d) (hp : c.notes.length = c.world.groups.length)
    {i : Nat} {run : GroupRun α} {note : RunNote α} (hi : c.world.groups.length ≤ i)
    (hr : d.world.groups[i]? = some run) (hn : d.notes[i]? = some note) :
    ∃ config token, a = .start (.grouped run.group config) token ∧ note = { start := config.start } := by
  have hlt := (List.getElem?_eq_some_iff.mp hr).1
  cases ht with
  | begun ha =>
    have hz : i = c.world.groups.length := by simp at hlt; omega
    subst hz
    rw [List.getElem?_concat_length] at hr
    rw [← hp, List.getElem?_concat_length] at hn
    cases hr
    cases hn
    exact ⟨_, _, ha, rfl⟩
  | aside | acknowledged | stepped | received | dropped =>
    simp [setEnv, setRun, World.setGroup] at hlt
    omega

theorem Turn.queued {a : Act α} {offset : Int} (ht : Turn topic c a d)
    (hp : c.notes.length = c.world.groups.length) (h : c.Queued group key offset) :
    d.Queued group key offset := by
  obtain ⟨i, run, note, hr, hn, hg, m, hm, hk⟩ := h
  obtain ⟨after, later, hr, hn, hgroup, hc⟩ := ht.continues hp hr hn
  exact ⟨i, after, later, hr, hn, hgroup.trans hg, m, hc.sent m hm, hk⟩

/-- An acknowledged message was queued after everything between it and the place where its claim began. -/
theorem Faithful.acknowledged (h : c.Faithful key.1) (hc : c.Covered group key) {i : Nat} {note : RunNote α}
    {message : Message α} {ack : Ack} (hn : c.notes[i]? = some note) (hm : message ∈ note.received)
    (ha : message.ack = some ack) (hg : ack.group = group) (hk : (ack.topic, ack.partition) = key) :
    c.QueuedBelow group key (ack.offset + 1) := by
  obtain ⟨run, hr⟩ : ∃ run, c.world.groups[i]? = some run :=
    ⟨_, List.getElem?_eq_getElem (h.paired ▸ (List.getElem?_eq_some_iff.mp hn).1)⟩
  have hd := h.delivered i run note hr hn
  obtain ⟨lost, hq, _⟩ := hd.queue
  have hsent : message ∈ note.sent := by
    rw [← hq]
    exact List.mem_append_left _ (List.mem_append_left _ hm)
  obtain ⟨b, hb, hmb⟩ := List.mem_flatMap.mp hsent
  obtain ⟨hplace, hdelivers⟩ := (hd.exact b hb).delivers message hmb
  cases Option.some.inj (ha.symm.trans hdelivers.ack)
  obtain ⟨⟨place, first⟩, hclaimed, hfirst⟩ := List.mem_map.mp hplace
  have hkey : message.place = key := hk
  rw [hkey] at hfirst
  obtain rfl : place = key := hfirst
  obtain ⟨k, hoffsets⟩ := (hd.exact b hb).consecutive place first hclaimed
  have hlast : message.offset ∈ b.offsets place :=
    List.mem_map_of_mem (List.mem_filter.mpr ⟨hmb, decide_eq_true hkey⟩)
  have hlast := (mem_consecutive.mp (hoffsets ▸ hlast)).2
  intro offset hnonneg hlt
  rcases Int.lt_or_le offset first with hlow | hhigh
  · exact hc.claimed i run note hr hn hg b hb first hclaimed offset hnonneg hlow
  · have hlt : offset < message.offset + 1 := hlt
    have hin : offset ∈ b.offsets place := hoffsets ▸ mem_consecutive.mpr ⟨hhigh, by omega⟩
    obtain ⟨m, hm, rfl⟩ := List.mem_map.mp hin
    obtain ⟨hm, hp⟩ := List.mem_filter.mp hm
    exact ⟨i, run, note, hr, hn, hg, m, List.mem_flatMap.mpr ⟨b, hb, hm⟩, of_decide_eq_true hp, rfl⟩

theorem Turn.continued {a : Act α} (ht : Turn topic c a d) (hp : c.notes.length = c.world.groups.length)
    {i : Nat} {run : GroupRun α} {note : RunNote α} (hi : i < c.world.groups.length)
    (hr : d.world.groups[i]? = some run) (hn : d.notes[i]? = some note) :
    ∃ before old, c.world.groups[i]? = some before ∧ c.notes[i]? = some old ∧ run.group = before.group ∧
      old.Continues c.world.env.broker before.group note := by
  obtain ⟨before, hb⟩ : ∃ before, c.world.groups[i]? = some before := ⟨_, List.getElem?_eq_getElem hi⟩
  obtain ⟨old, ho⟩ : ∃ old, c.notes[i]? = some old := ⟨_, List.getElem?_eq_getElem (hp ▸ hi)⟩
  obtain ⟨after, later, ha, hl, hg, hcont⟩ := ht.continues hp hb ho
  cases Option.some.inj (hr.symm.trans ha)
  cases Option.some.inj (hn.symm.trans hl)
  exact ⟨before, old, hb, ho, hg, hcont⟩

/-- A claim that is made now skips nothing that was not queued. -/
theorem Covered.position (h : c.Covered group key) :
    c.QueuedBelow group key (c.world.env.broker.groupPosition group key .earliest) := by
  unfold Broker.groupPosition
  cases hv : c.world.env.broker.committedOffset group key with
  | none =>
    intro offset hn hl
    simp only [Option.getD_none, Broker.startPosition] at hl
    omega
  | some v => exact h.committed v hv

/-- What the group has committed after a turn was queued before it. -/
theorem Covered.committed_turn (h : c.Covered group key) (hf : c.Faithful key.1) {a : Act α}
    (ht : Turn key.1 c a d) {v : Int} (hv : d.world.env.broker.committedOffset group key = some v) :
    c.QueuedBelow group key v := by
  cases ht with
  | @acknowledged _ _ _ ack hn hm ha =>
    have hv : (c.world.env.broker.accept ack).committedOffset group key = some v := hv
    rw [Broker.committedOffset_accept] at hv
    split at hv
    next he =>
      cases hv
      intro offset hnonneg hlt
      rcases Int.lt_or_le offset (ack.offset + 1) with hlow | hhigh
      · exact hf.acknowledged h hn hm ha he.1 he.2 offset hnonneg hlow
      · cases hold : c.world.env.broker.committedOffset group key with
        | none =>
          rw [hold, Option.getD_none] at hlt
          omega
        | some w =>
          rw [hold, Option.getD_some] at hlt
          exact h.committed w hold offset hnonneg (by omega)
    next => exact h.committed v hv
  | aside hk => exact h.committed v (by rwa [Broker.committedOffset, ← hk.committed])
  | begun _ hk => exact h.committed v (by rwa [Broker.committedOffset, ← hk.committed])
  | stepped _ hs =>
    have hk : Keeps key.1 c.world.env _ := hs.keeps
    exact h.committed v (by rwa [Broker.committedOffset, ← hk.committed])
  | received => exact h.committed v hv
  | dropped => exact h.committed v hv

theorem Covered.turn (h : c.Covered group key) (hf : c.Faithful key.1) {a : Act α} (ht : Turn key.1 c a d)
    (hs : ∀ config token, a = .start (.grouped group config) token → config.start = .earliest) :
    d.Covered group key := by
  have hbelow : ∀ first, c.QueuedBelow group key first → d.QueuedBelow group key first :=
    fun first hq offset hn hl => ht.queued hf.paired (hq offset hn hl)
  refine ⟨?_, ?_, fun v hv => hbelow v (h.committed_turn hf ht hv)⟩
  · intro i run note hr hn hg
    rcases Nat.lt_or_ge i c.world.groups.length with hi | hi
    · obtain ⟨before, old, hb, ho, hgroup, hcont⟩ := ht.continued hf.paired hi hr hn
      rw [hcont.start]
      exact h.early i before old hb ho (hgroup.symm.trans hg)
    · obtain ⟨config, token, ha, rfl⟩ := ht.begins hf.paired hi hr hn
      exact hs config token (hg ▸ ha)
  · intro i run note hr hn hg b hb first hc
    rcases Nat.lt_or_ge i c.world.groups.length with hi | hi
    · obtain ⟨before, old, hbefore, ho, hgroup, hcont⟩ := ht.continued hf.paired hi hr hn
      have hg := hgroup.symm.trans hg
      refine hbelow first ?_
      rcases hcont.claimed b hb _ hc with ⟨b', hb', hc'⟩ | hfirst
      · exact h.claimed i before old hbefore ho hg b' hb' first hc'
      · rw [hg, h.early i before old hbefore ho hg] at hfirst
        have hfirst : first = c.world.env.broker.groupPosition group key .earliest := hfirst
        rw [hfirst]
        exact h.position
    · obtain ⟨config, token, _, rfl⟩ := ht.begins hf.paired hi hr hn
      simp only [RunNote.sessions, List.nil_append, List.mem_singleton] at hb
      rw [hb] at hc
      simp at hc

theorem covered_of_run {acts : List (Act α)} (h : c.Covered group key) (hf : c.Faithful key.1)
    (hr : c.run acts = some d) (ht : ∀ n, Act.outside (.replaceTopic key.1 n) ∉ acts)
    (hs : ∀ config token, Act.start (.grouped group config) token ∈ acts → config.start = .earliest) :
    d.Covered group key := by
  induction acts generalizing c with
  | nil => exact Option.some.inj hr ▸ h
  | cons a rest ih =>
    obtain ⟨next, ha, hrest⟩ := Option.bind_eq_some_iff.mp hr
    have hturn : Turn key.1 c a next :=
      act?_turn ha hf.collects fun n he => ht n (he ▸ List.mem_cons_self)
    have hcovered := h.turn hf hturn fun config token he => hs config token (he ▸ List.mem_cons_self)
    exact ih hcovered (hf.turn hturn) hrest (fun n hn => ht n (List.mem_cons_of_mem _ hn))
      fun config token hm => hs config token (List.mem_cons_of_mem _ hm)

end Chronicle

/-- Whatever happens in a world, if the consumers of a group start at the beginning and the topic is not
created anew, then every offset below the one that the group has committed was put on a message queue of
the group. So the group commits no record that all its consumers refuse, and none behind it. -/
theorem committed_was_queued {acts : List (Act α)} {c : Chronicle α} {group : String} {key : PartitionKey}
    (h : Chronicle.run {} acts = some c)
    (hs : ∀ config token, Act.start (.grouped group config) token ∈ acts → config.start = .earliest)
    (ht : ∀ n, Act.outside (.replaceTopic key.1 n) ∉ acts) {committed : Int}
    (hc : c.world.env.broker.committedOffset group key = some committed) :
    (∀ offset, 0 ≤ offset → offset < committed → c.Queued group key offset) ∧
    ∀ offset payload, c.world.env.broker.payload? key offset = some payload →
      (∀ run ∈ c.world.groups, run.group = group → ∃ reason, run.decoder payload = .error reason) →
        committed ≤ offset := by
  have hnew : Chronicle.Covered group key ({} : Chronicle α) :=
    ⟨fun _ _ _ hr => by simp at hr, fun _ _ _ hr => by simp at hr,
      fun _ hv => by simp [Broker.committedOffset, Table.get?] at hv⟩
  have hf := Chronicle.faithful_of_run (Chronicle.faithful_new key.1) h ht
  have hcovered := Chronicle.covered_of_run hnew (Chronicle.faithful_new key.1) h ht hs
  have hbelow := hcovered.committed committed hc
  refine ⟨hbelow, fun offset payload hp hrefuse => ?_⟩
  by_contra hlt
  obtain ⟨i, run, note, hr, hn, hg, m, hm, hplace, hoffset⟩ :=
    hbelow offset (Broker.payload?_eq_some.mp hp).1 (Int.not_le.mp hlt)
  obtain ⟨b, hb, hmb⟩ := List.mem_flatMap.mp hm
  obtain ⟨_, hdelivers⟩ := ((hf.delivered i run note hr hn).exact b hb).delivers m hmb
  obtain ⟨other, ho, hdecoded, _⟩ := hdelivers.decoded
  rw [hplace, hoffset] at ho
  cases Option.some.inj (hp.symm.trans (ho rfl))
  obtain ⟨reason, hreason⟩ := hrefuse run (List.mem_of_getElem? hr) hg
  have hdecoder : run.decoder payload = .ok m.value := hdecoded
  rw [hreason] at hdecoder
  simp at hdecoder

theorem refused_record_not_committed : ∃ c,
    Chronicle.run {} refusedRecordActs = some c ∧
      c.world.env.broker.committedOffset "billing" ("orders", 0) = some 1 ∧
      c.Queued "billing" ("orders", 0) 0 ∧
      c.world.env.broker.payload? ("orders", 0) 1 = some [] := by
  have hstate : (Chronicle.run {} refusedRecordActs).map (fun c =>
      (c.world.env.broker.committedOffset "billing" ("orders", 0),
        c.world.env.broker.payload? ("orders", 0) 1)) = some (some 1, some []) := by rfl
  obtain ⟨c, hc, he⟩ := Option.map_eq_some_iff.mp hstate
  obtain ⟨hcommitted, hpayload⟩ := Prod.mk.inj he
  have hq := committed_was_queued hc (by simp [refusedRecordActs, billing]) (by simp [refusedRecordActs])
    hcommitted
  exact ⟨c, hc, hcommitted, hq.1 0 (by omega) (by omega), hpayload⟩

end TopicConsumer
