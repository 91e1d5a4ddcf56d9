import TopicConsumer.Proofs.Deeds

namespace TopicConsumer

open Environment

variable {α : Type}

namespace Ack

/-- The acknowledgment is one for a group in a partition. -/
def Concerns (ack : Ack) (group : String) (key : PartitionKey) : Prop :=
  ack.group = group ∧ (ack.topic, ack.partition) = key

instance (ack : Ack) (group : String) (key : PartitionKey) : Decidable (ack.Concerns group key) :=
  inferInstanceAs (Decidable (_ ∧ _))

/-- The offsets behind the records of a partition that were acknowledged for a group. -/
def passed (acks : List Ack) (group : String) (key : PartitionKey) : List Int :=
  (acks.filter (·.Concerns group key)).map (·.offset + 1)

variable {acks others : List Ack} {group : String} {key : PartitionKey}

theorem passed_append (acks more : List Ack) (group : String) (key : PartitionKey) :
    passed (acks ++ more) group key = passed acks group key ++ passed more group key := by
  simp [passed]

theorem passed_eq_nil_iff : passed acks group key = [] ↔ ∀ ack ∈ acks, ¬ ack.Concerns group key := by
  simp [passed, List.filter_eq_nil_iff]

/-- The furthest offset does not depend on the order in which records were acknowledged, nor on how often. -/
theorem max?_passed_congr (h : ∀ ack, ack ∈ acks ↔ ack ∈ others) (group : String) (key : PartitionKey) :
    (passed acks group key).max? = (passed others group key).max? := by
  have hmem : ∀ offset, offset ∈ passed acks group key ↔ offset ∈ passed others group key := by
    simp [passed, h]
  refine Option.ext fun next => ?_
  rw [List.max?_eq_some_iff, List.max?_eq_some_iff]
  simp only [hmem]

end Ack

theorem max?_concat {xs : List Int} {x : Int} (h : 0 ≤ x) : (xs ++ [x]).max? = some (max (xs.max?.getD 0) x) := by
  cases hm : xs.max? with
  | none => simp [List.max?_eq_none_iff.mp hm, Int.max_eq_right h]
  | some m =>
    obtain ⟨hin, hle⟩ := List.max?_eq_some_iff.mp hm
    rw [List.max?_eq_some_iff, Option.getD_some]
    refine ⟨?_, fun y hy => ?_⟩
    · rcases Int.le_total m x with hx | hx
      · simp [Int.max_eq_right hx]
      · simp [Int.max_eq_left hx, hin]
    · rcases List.mem_append.mp hy with hy | hy
      · exact Int.le_trans (hle y hy) (Int.le_max_left m x)
      · exact List.mem_singleton.mp hy ▸ Int.le_max_right m x

theorem max?_append_le {xs : List Int} {v : Int} (h : xs.max? = some v) (ys : List Int) :
    ∃ w, (xs ++ ys).max? = some w ∧ v ≤ w := by
  have hv := List.mem_append_left ys (List.max?_eq_some_iff.mp h).1
  cases hm : (xs ++ ys).max? with
  | none => simp [List.max?_eq_none_iff.mp hm] at hv
  | some w => exact ⟨w, rfl, (List.max?_eq_some_iff.mp hm).2 v hv⟩

namespace Broker

/-- What every group has committed of every partition is the furthest that was acknowledged. -/
def Joins (b : Broker) (acks : List Ack) : Prop :=
  ∀ group key, b.committedOffset group key = (Ack.passed acks group key).max?

theorem Joins.accept {b : Broker} {acks : List Ack} (h : b.Joins acks) {ack : Ack} (hn : 0 ≤ ack.offset) :
    (b.accept ack).Joins (acks ++ [ack]) := by
  intro group key
  rw [committedOffset_accept, Ack.passed_append, h]
  by_cases hc : ack.group = group ∧ (ack.topic, ack.partition) = key
  · have hpassed : Ack.passed [ack] group key = [ack.offset + 1] := by simp [Ack.passed, Ack.Concerns, hc]
    rw [if_pos hc, hpassed, max?_concat (by omega)]
  · have hpassed : Ack.passed [ack] group key = [] := by simp [Ack.passed, Ack.Concerns, hc]
    rw [if_neg hc, hpassed, List.append_nil]

theorem Takes.joins {b after : Broker} {ack? : Option Ack} {acks : List Ack} (h : b.Takes after ack?)
    (hj : b.Joins acks) (hn : ∀ ack, ack? = some ack → 0 ≤ ack.offset) : after.Joins (acks ++ ack?.toList) := by
  cases ack? with
  | none =>
    intro group key
    rw [Option.toList_none, List.append_nil, ← hj, committedOffset, committedOffset]
    exact congrArg _ h
  | some ack =>
    obtain rfl : after = b.accept ack := h
    exact hj.accept (hn ack rfl)

theorem grants_natural (b : Broker) : b.Grants (0 ≤ ·.offset) :=
  fun _ _ _ _ hp => (payload?_eq_some.mp hp).1

end Broker

/-- A chronicle and the acknowledgments made in it, in their order. -/
structure AckLedger (α : Type) where
  chronicle : Chronicle α := {}
  acked : List Ack := []

namespace AckLedger

variable {l m : AckLedger α} {deed : Deed α} {deeds : List (Deed α)}

def broker (l : AckLedger α) : Broker := l.chronicle.world.env.broker

def committed (l : AckLedger α) (group : String) (key : PartitionKey) : Option Int := l.broker.committedOffset group key

def deed? (l : AckLedger α) (deed : Deed α) : Option (AckLedger α) :=
  (l.chronicle.deed? deed).map fun c => ⟨c, l.acked ++ (l.chronicle.ack? deed).toList⟩

def run (l : AckLedger α) : List (Deed α) → Option (AckLedger α)
  | [] => some l
  | deed :: rest => (l.deed? deed).bind (·.run rest)

/-- Received messages, each given by the number of its consumer and its own, are acknowledged one after the other. -/
def acknowledging (handles : List (Nat × Nat)) : List (Deed α) :=
  handles.map fun p => .act (.acknowledge p.1 p.2)

def acksOf (l : AckLedger α) (handles : List (Nat × Nat)) : List Ack :=
  handles.filterMap fun p => (l.chronicle.received? p.1 p.2).bind (·.ack)

/-- What can be acknowledged was read at some offset, and what is committed is what was acknowledged. -/
structure Sound (l : AckLedger α) : Prop where
  handles : l.chronicle.Handles (0 ≤ ·.offset)
  joins : l.broker.Joins l.acked

structure Grows (l m : AckLedger α) : Prop where
  acked : l.acked <+: m.acked
  received : ∀ run i, (l.chronicle.received? run i).isSome →
    m.chronicle.received? run i = l.chronicle.received? run i

theorem deed?_cases (h : l.deed? deed = some m) :
    l.chronicle.deed? deed = some m.chronicle ∧ m.acked = l.acked ++ (l.chronicle.ack? deed).toList := by
  obtain ⟨c, hc, rfl⟩ := Option.map_eq_some_iff.mp h
  exact ⟨hc, rfl⟩

theorem Sound.done (h : l.Sound) (hd : l.deed? deed = some m) : m.Sound := by
  obtain ⟨hc, hacked⟩ := deed?_cases hd
  refine ⟨h.handles.done hc (Broker.grants_natural _), ?_⟩
  rw [hacked]
  exact (Chronicle.takes_of_deed? hc).joins h.joins fun ack ha => h.handles.ack ha

theorem run_keeps {Q : AckLedger α → Prop} (h : Q l) (hr : l.run deeds = some m)
    (hk : ∀ deed ∈ deeds, ∀ before after, Q before → before.deed? deed = some after → Q after) : Q m := by
  induction deeds generalizing l with
  | nil => exact Option.some.inj hr ▸ h
  | cons deed rest ih =>
    obtain ⟨next, hd, hrest⟩ := Option.bind_eq_some_iff.mp hr
    obtain ⟨hfirst, htail⟩ := List.forall_mem_cons.mp hk
    exact ih (hfirst l next h hd) hrest htail

theorem Sound.run (h : l.Sound) (hr : l.run deeds = some m) : m.Sound :=
  run_keeps h hr fun _ _ _ _ hs hd => hs.done hd

theorem faithful_run {topic : String} (h : l.chronicle.alone.Faithful topic) (hr : l.run deeds = some m)
    (ht : ∀ deed ∈ deeds, deed.replaced? ≠ some topic) : m.chronicle.alone.Faithful topic :=
  run_keeps (Q := fun l => l.chronicle.alone.Faithful topic) h hr fun deed hin _ _ hf hd =>
    Chronicle.faithful_done hf (deed?_cases hd).1 (ht deed hin)

theorem sound_empty : Sound ({} : AckLedger α) where
  handles := ⟨⟨by simp, by simp⟩, by simp⟩
  joins _ _ := rfl

/-- Through a received message the record is acknowledged that it was made of, for the group of its consumer. -/
theorem received_ack (h : run {} deeds = some l) {i j : Nat} {message : Message α}
    (hm : l.chronicle.received? i j = some message) : ∃ member, l.chronicle.world.groups[i]? = some member ∧
      message.ack = some ⟨member.group, message.topic, message.partition, message.offset⟩ := by
  obtain ⟨topic, ht⟩ := Deed.exists_topic_spared deeds
  have hempty : (({} : AckLedger α).chronicle.alone).Faithful topic := Chronicle.faithful_new topic
  exact (faithful_run hempty h ht).received hm

theorem Grows.done {next : AckLedger α} (h : l.Grows m) (hd : m.deed? deed = some next) : l.Grows next := by
  obtain ⟨hc, hacked⟩ := deed?_cases hd
  refine ⟨?_, fun run i hm => ?_⟩
  · rw [hacked]
    exact h.acked.trans (List.prefix_append _ _)
  · have hbefore := h.received run i hm
    exact (Chronicle.received?_deed hc (hbefore ▸ hm)).trans hbefore

theorem Grows.run (hr : l.run deeds = some m) : l.Grows m :=
  run_keeps ⟨List.prefix_rfl, fun _ _ _ => rfl⟩ hr fun _ _ _ _ hg hd => hg.done hd

theorem deed?_acknowledge {run i : Nat} {message : Message α} (h : l.chronicle.received? run i = some message) :
    ∃ m, l.deed? (.act (.acknowledge run i)) = some m ∧ m.acked = l.acked ++ message.ack.toList := by
  have hack : l.chronicle.ack? (.act (.acknowledge run i)) = message.ack := by simp [Chronicle.ack?, h]
  have hdone : ∃ c, l.chronicle.act? (.acknowledge run i) = some c := by
    unfold Chronicle.received? at h
    simp only [Chronicle.act?, h]
    split <;> exact ⟨_, rfl⟩
  obtain ⟨c, hc⟩ := hdone
  refine ⟨⟨c, l.acked ++ message.ack.toList⟩, ?_, rfl⟩
  simp [deed?, Chronicle.deed?, hc, hack]

theorem acksOf_congr {handles : List (Nat × Nat)}
    (h : ∀ p ∈ handles, m.chronicle.received? p.1 p.2 = l.chronicle.received? p.1 p.2) :
    m.acksOf handles = l.acksOf handles :=
  List.filterMap_congr fun p hp => by rw [h p hp]

theorem run_acknowledging {handles : List (Nat × Nat)}
    (h : ∀ p ∈ handles, (l.chronicle.received? p.1 p.2).isSome) :
    ∃ m, l.run (acknowledging handles) = some m ∧ m.acked = l.acked ++ l.acksOf handles := by
  induction handles generalizing l with
  | nil => exact ⟨l, rfl, (List.append_nil _).symm⟩
  | cons p rest ih =>
    obtain ⟨hp, hrest⟩ := List.forall_mem_cons.mp h
    obtain ⟨message, hm⟩ := Option.isSome_iff_exists.mp hp
    obtain ⟨next, hd, hacked⟩ := deed?_acknowledge hm
    have hkept : ∀ q ∈ rest, next.chronicle.received? q.1 q.2 = l.chronicle.received? q.1 q.2 :=
      fun q hq => Chronicle.received?_deed (deed?_cases hd).1 (hrest q hq)
    obtain ⟨m, hrun, hmore⟩ := ih fun q hq => hkept q hq ▸ hrest q hq
    refine ⟨m, ?_, ?_⟩
    · rw [acknowledging, List.map_cons, run, hd]
      exact hrun
    · have hfirst : l.acksOf (p :: rest) = message.ack.toList ++ l.acksOf rest := by
        rw [acksOf, List.filterMap_cons, hm, Option.bind_some]
        cases message.ack <;> rfl
      rw [hmore, hacked, acksOf_congr hkept, hfirst, List.append_assoc]

end AckLedger

/-- Whatever happens to a broker, each group has committed of each partition one past the furthest record that was
acknowledged for it there, and nothing if there was none. So it makes no difference in which order records are
acknowledged, how often, and what else happens in between. Through a message its own record is acknowledged for the
group of its consumer. What is committed never decreases, messages can be acknowledged as often and as late as one likes,
and an acknowledgment changes no other commit and nothing else of the broker. -/
theorem acknowledgments_join {deeds : List (Deed α)} {l : AckLedger α} (h : AckLedger.run {} deeds = some l) :
    (∀ group key, l.committed group key = (Ack.passed l.acked group key).max? ∧
      (l.committed group key = none ↔ ∀ ack ∈ l.acked, ¬ ack.Concerns group key)) ∧
    (∀ (others : List (Deed α)) (m : AckLedger α), AckLedger.run {} others = some m →
      (∀ ack, ack ∈ m.acked ↔ ack ∈ l.acked) →
      ∀ group key, m.committed group key = l.committed group key) ∧
    (∀ i j message, l.chronicle.received? i j = some message →
      ∃ run, l.chronicle.world.groups[i]? = some run ∧
        message.ack = some ⟨run.group, message.topic, message.partition, message.offset⟩) ∧
    (∀ more m, l.run more = some m →
      (∀ group key v, l.committed group key = some v → ∃ w, m.committed group key = some w ∧ v ≤ w) ∧
      ∀ handles, (∀ p ∈ handles, (l.chronicle.received? p.1 p.2).isSome) →
        ∃ n, m.run (AckLedger.acknowledging handles) = some n ∧ n.acked = m.acked ++ l.acksOf handles) ∧
    ∀ deed ack m, l.chronicle.ack? deed = some ack → l.deed? deed = some m →
      (∀ group key, ¬ ack.Concerns group key → m.committed group key = l.committed group key) ∧
      m.broker = { l.broker with committed := m.broker.committed } := by
  have hsound := AckLedger.sound_empty.run h
  refine ⟨fun group key => ⟨hsound.joins group key, ?_⟩, ?_, fun i j message => AckLedger.received_ack h, ?_, ?_⟩
  · have hjoin : l.committed group key = _ := hsound.joins group key
    rw [hjoin, List.max?_eq_none_iff, Ack.passed_eq_nil_iff]
  · intro others m hm hsame group key
    have hjoin : m.committed group key = _ := (AckLedger.sound_empty.run hm).joins group key
    have hjoin' : l.committed group key = _ := hsound.joins group key
    rw [hjoin, hjoin', Ack.max?_passed_congr hsame]
  · intro more m hm
    obtain ⟨⟨acks, hacked⟩, hreceived⟩ := AckLedger.Grows.run hm
    refine ⟨fun group key v hv => ?_, fun handles hh => ?_⟩
    · have hjoin : m.committed group key = _ := (hsound.run hm).joins group key
      rw [hjoin, ← hacked, Ack.passed_append]
      exact max?_append_le ((hsound.joins group key).symm.trans hv) _
    · have hkept : ∀ p ∈ handles, m.chronicle.received? p.1 p.2 = l.chronicle.received? p.1 p.2 :=
        fun p hp => hreceived p.1 p.2 (hh p hp)
      obtain ⟨n, hn, hmore⟩ := AckLedger.run_acknowledging fun p hp => hkept p hp ▸ hh p hp
      exact ⟨n, hn, by rw [hmore, AckLedger.acksOf_congr hkept]⟩
  · intro deed ack m hack hd
    have htakes := Chronicle.takes_of_deed? (AckLedger.deed?_cases hd).1
    rw [hack] at htakes
    have hafter : m.broker = l.broker.accept ack := htakes
    refine ⟨fun group key hn => ?_, by rw [hafter]; rfl⟩
    have hn : ¬ (ack.group = group ∧ (ack.topic, ack.partition) = key) := hn
    rw [AckLedger.committed, hafter, Broker.committedOffset_accept, if_neg hn]
    rfl

def billingDeeds : List (Deed Nat) :=
  let loop : Deed Nat := .act (.move ⟨.loop 0, false⟩)
  let claim : Deed Nat := .act (.move ⟨.claim 0 0, false⟩)
  [.act (.outside (.createTopic "orders" 1)), .act (.outside (.produce ("orders", 0) [7])),
    .act (.outside (.produce ("orders", 0) [8])), .act (.start (.grouped "billing" billing) []),
    loop, loop, loop, loop, claim, claim, claim, claim, claim, .act (.receive 0),
    claim, claim, claim, claim, claim, .act (.receive 0)]

/-- A handler of another group takes the first record and acknowledges it. -/
def auditDeeds : List (Deed Nat) :=
  let session : Deed Nat := .act (.move ⟨.collect 0, false⟩)
  let handler : Deed Nat := .act (.move ⟨.collectClaim 0 0, false⟩)
  [.join [("group.id", "audit")], .collect true none none 1 ["orders"] [], session, session, session,
    handler, handler, handler]

/-- The messages are acknowledged backwards, and one of them twice, after the consumer was closed and the topic created
anew, or in their order while it reads. -/
theorem late_acks_join : ∃ l m : AckLedger Nat,
    AckLedger.run {} (billingDeeds ++ auditDeeds ++ [.act (.close 0), .act (.outside (.replaceTopic "orders" 1))] ++
      AckLedger.acknowledging [(0, 1), (0, 0), (0, 1)]) = some l ∧
    AckLedger.run {} (billingDeeds ++ AckLedger.acknowledging [(0, 0), (0, 1)] ++ auditDeeds) = some m ∧
    (∀ group key, m.committed group key = l.committed group key) ∧
    l.committed "billing" ("orders", 0) = some 2 ∧ l.committed "audit" ("orders", 0) = some 1 ∧
    l.committed "audit" ("orders", 1) = none ∧
    ∃ n w, l.run (AckLedger.acknowledging [(0, 0)]) = some n ∧ n.committed "billing" ("orders", 0) = some w ∧ 2 ≤ w := by
  have hlate : (AckLedger.run {} (billingDeeds ++ auditDeeds ++
      [.act (.close 0), .act (.outside (.replaceTopic "orders" 1))] ++
      AckLedger.acknowledging [(0, 1), (0, 0), (0, 1)])).map (fun l =>
        (l.acked, (l.chronicle.received? 0 0).isSome)) =
      some ([⟨"audit", "orders", 0, 0⟩, ⟨"billing", "orders", 0, 1⟩, ⟨"billing", "orders", 0, 0⟩,
        ⟨"billing", "orders", 0, 1⟩], true) := by rfl
  have hprompt : (AckLedger.run {} (billingDeeds ++ AckLedger.acknowledging [(0, 0), (0, 1)] ++ auditDeeds)).map
      (·.acked) = some [⟨"billing", "orders", 0, 0⟩, ⟨"billing", "orders", 0, 1⟩, ⟨"audit", "orders", 0, 0⟩] := by rfl
  obtain ⟨l, hl, he⟩ := Option.map_eq_some_iff.mp hlate
  obtain ⟨hacked, hreceived⟩ := Prod.mk.inj he
  obtain ⟨m, hm, hother⟩ := Option.map_eq_some_iff.mp hprompt
  obtain ⟨hjoin, hsame, _, hmore, _⟩ := acknowledgments_join hl
  have hbilling : l.committed "billing" ("orders", 0) = some 2 := by
    rw [(hjoin _ _).1, hacked]
    rfl
  have hagain := (hmore [] l rfl).2 [(0, 0)] (by simpa using hreceived)
  obtain ⟨n, hn, _⟩ := hagain
  obtain ⟨w, hw, hle⟩ := (hmore _ n hn).1 _ _ _ hbilling
  refine ⟨l, m, hl, hm, hsame _ m hm ?_, hbilling, ?_, ?_, n, w, hn, hw, hle⟩
  · intro ack
    simp [hacked, hother, or_comm, or_left_comm]
  · rw [(hjoin _ _).1, hacked]
    rfl
  · rw [(hjoin _ _).2, hacked]
    decide

end TopicConsumer
