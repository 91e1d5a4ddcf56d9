import TopicConsumer.Proofs.ReaderCounts

namespace TopicConsumer

open Environment

variable {α : Type}

/-- A client, by the number under which it was opened. -/
inductive ClientRef where
  | group (client : Nat)
  | direct (client : Nat)
deriving DecidableEq, Repr

theorem ClientFlags.release_get (clients : List ClientFlags) (i j : Nat) :
    ((release clients i).1[j]?).map (·.closed) = (clients[j]?).map fun flags => flags.closed || decide (j = i) := by
  unfold release
  by_cases hj : j = i
  · subst hj
    split
    next hc =>
      have hb : j < clients.length := (List.getElem?_eq_some_iff.mp hc).1
      simp [hb]
    next hn =>
      cases hc : clients[j]? with
      | none => rfl
      | some flags =>
        obtain ⟨atBroker, closed⟩ := flags
        cases closed with
        | true => simp
        | false => exact absurd hc (hn atBroker)
  · have hset : ∀ flags, (clients.set i flags)[j]? = clients[j]? := fun flags => List.getElem?_set_ne (Ne.symm hj)
    split <;> simp [hj, hset]

theorem ClientFlags.release_counts {clients : List ClientFlags} (h : ∀ flags ∈ clients, flags.atBroker = true)
    (i : Nat) : (∀ flags ∈ (release clients i).1, flags.atBroker = true) ∧
      (release clients i).1.countP (·.closed) = clients.countP (·.closed) + (release clients i).2 := by
  unfold release
  split
  next atBroker hc =>
    have hat : atBroker = true := h _ (List.mem_of_getElem? hc)
    subst hat
    obtain ⟨hb, hget⟩ := List.getElem?_eq_some_iff.mp hc
    refine ⟨fun flags hm => ?_, ?_⟩
    · rcases List.mem_or_eq_of_mem_set hm with hm | rfl
      · exact h flags hm
      · rfl
    · rw [List.countP_set hb, hget]
      simp
  next => exact ⟨h, rfl⟩

namespace Tally

variable {t u : Tally}

def clients (t : Tally) : List ClientFlags × List ClientFlags × Nat := (t.groups, t.directs, t.closedClients)

/-- Whether a client is closed; `none` if it was not opened yet. -/
def closed? (t : Tally) : ClientRef → Option Bool
  | .group i => t.groups[i]?.map (·.closed)
  | .direct i => t.directs[i]?.map (·.closed)

/-- What can become of the clients: one is closed, or opened, or opened and closed again. -/
inductive ClientStep (t u : Tally) : Prop where
  | same : u.clients = t.clients → ClientStep t u
  | closedGroup (client : Nat) : u.clients = (t.closeGroup client).clients → ClientStep t u
  | closedDirect (client : Nat) : u.clients = (t.closeDirect client).clients → ClientStep t u
  | openedGroup : u.clients = (t.groups ++ [⟨true, false⟩], t.directs, t.closedClients) → ClientStep t u
  | openedDirect : u.clients = (t.groups, t.directs ++ [⟨true, false⟩], t.closedClients) → ClientStep t u
  | returned : u.clients = (t.groups, t.directs ++ [⟨true, true⟩], t.closedClients + 1) → ClientStep t u

theorem closed?_congr (h : u.clients = t.clients) (ref : ClientRef) : u.closed? ref = t.closed? ref := by
  simp only [clients, Prod.mk.injEq] at h
  cases ref <;> simp [closed?, h]

theorem closed?_closeGroup (t : Tally) (client : Nat) (ref : ClientRef) :
    (t.closeGroup client).closed? ref = (t.closed? ref).map (· || decide (ref = .group client)) := by
  cases ref with
  | group j => simp [closed?, closeGroup, ClientFlags.release_get, Function.comp_def]
  | direct j => simp [closed?, closeGroup, Function.comp_def]

theorem closed?_closeDirect (t : Tally) (client : Nat) (ref : ClientRef) :
    (t.closeDirect client).closed? ref = (t.closed? ref).map (· || decide (ref = .direct client)) := by
  cases ref with
  | group j => simp [closed?, closeDirect, Function.comp_def]
  | direct j => simp [closed?, closeDirect, ClientFlags.release_get, Function.comp_def]

/-- No client is forgotten, and none that is closed is opened again. -/
def Later (t u : Tally) : Prop :=
  ∀ ref closed, t.closed? ref = some closed → ∃ later, u.closed? ref = some later ∧ (closed = true → later = true)

theorem Later.refl (t : Tally) : t.Later t := fun _ closed hc => ⟨closed, hc, id⟩

theorem Later.closed (h : t.Later u) {ref : ClientRef} (hc : t.closed? ref = some true) : u.closed? ref = some true := by
  obtain ⟨later, hl, hkept⟩ := h ref true hc
  rw [hl, hkept rfl]

theorem Later.known (h : t.Later u) {ref : ClientRef} (hc : (t.closed? ref).isSome) : (u.closed? ref).isSome := by
  obtain ⟨closed, hc⟩ := Option.isSome_iff_exists.mp hc
  obtain ⟨later, hl, _⟩ := h ref closed hc
  simp [hl]

theorem ClientStep.later (h : t.ClientStep u) : t.Later u := by
  intro ref closed hc
  have hclosing {v : Tally} {closes : Bool} (hu : u.clients = v.clients)
      (hv : v.closed? ref = (t.closed? ref).map (· || closes)) :
      ∃ later, u.closed? ref = some later ∧ (closed = true → later = true) := by
    refine ⟨closed || closes, ?_, fun hclosed => by simp [hclosed]⟩
    rw [closed?_congr hu, hv, hc]
    rfl
  have hopening (groups directs : List ClientFlags) {count : Nat}
      (hu : u.clients = (t.groups ++ groups, t.directs ++ directs, count)) :
      ∃ later, u.closed? ref = some later ∧ (closed = true → later = true) := by
    simp only [clients, Prod.mk.injEq] at hu
    refine ⟨closed, ?_, id⟩
    cases ref with
    | group i =>
      obtain ⟨flags, hf, rfl⟩ := Option.map_eq_some_iff.mp hc
      have hb : i < t.groups.length := (List.getElem?_eq_some_iff.mp hf).1
      simp [closed?, hu.1, List.getElem?_append_left hb, hf]
    | direct i =>
      obtain ⟨flags, hf, rfl⟩ := Option.map_eq_some_iff.mp hc
      have hb : i < t.directs.length := (List.getElem?_eq_some_iff.mp hf).1
      simp [closed?, hu.2.1, List.getElem?_append_left hb, hf]
  cases h with
  | same hu => exact ⟨closed, (closed?_congr hu ref).trans hc, id⟩
  | closedGroup client hu => exact hclosing hu (t.closed?_closeGroup client ref)
  | closedDirect client hu => exact hclosing hu (t.closed?_closeDirect client ref)
  | openedGroup hu => exact hopening [⟨true, false⟩] [] (by rw [hu, List.append_nil])
  | openedDirect hu => exact hopening [] [⟨true, false⟩] (by rw [hu, List.append_nil])
  | returned hu => exact hopening [] [⟨true, true⟩] (by rw [hu, List.append_nil])

/-- All clients are at the broker, which counted one close for each that is closed. -/
structure ClosesCounted (t : Tally) : Prop where
  atBroker : ∀ flags ∈ t.groups ++ t.directs, flags.atBroker = true
  counted : t.closedClients = (t.groups ++ t.directs).countP (·.closed)

theorem ClosesCounted.congr (h : t.ClosesCounted) (hu : u.clients = t.clients) : u.ClosesCounted := by
  simp only [clients, Prod.mk.injEq] at hu
  obtain ⟨hg, hd, hc⟩ := hu
  exact ⟨by rw [hg, hd]; exact h.atBroker, by rw [hg, hd, hc]; exact h.counted⟩

theorem ClosesCounted.step (h : t.ClosesCounted) (hs : t.ClientStep u) : u.ClosesCounted := by
  have hgroups : ∀ flags ∈ t.groups, flags.atBroker = true := fun flags hm => h.atBroker flags (by simp [hm])
  have hdirects : ∀ flags ∈ t.directs, flags.atBroker = true := fun flags hm => h.atBroker flags (by simp [hm])
  have hcounted := h.counted
  rw [List.countP_append] at hcounted
  have hmake {groups directs : List ClientFlags} {count : Nat} (hu : u.clients = (groups, directs, count))
      (hg : ∀ flags ∈ groups, flags.atBroker = true) (hd : ∀ flags ∈ directs, flags.atBroker = true)
      (hc : count = groups.countP (·.closed) + directs.countP (·.closed)) : u.ClosesCounted := by
    simp only [clients, Prod.mk.injEq] at hu
    obtain ⟨rfl, rfl, rfl⟩ := hu
    refine ⟨fun flags hm => ?_, by rw [List.countP_append, hc]⟩
    rcases List.mem_append.mp hm with hm | hm
    · exact hg flags hm
    · exact hd flags hm
  have hmore {flags : List ClientFlags} (hf : ∀ f ∈ flags, f.atBroker = true) (closed : Bool) :
      ∀ f ∈ flags ++ [⟨true, closed⟩], f.atBroker = true := by
    intro f hm
    rcases List.mem_append.mp hm with hm | hm
    · exact hf f hm
    · rw [List.mem_singleton.mp hm]
  cases hs with
  | same hu => exact h.congr hu
  | closedGroup client hu =>
    obtain ⟨hat, hcount⟩ := ClientFlags.release_counts hgroups client
    exact hmake hu hat hdirects (by simp only [closeGroup]; omega)
  | closedDirect client hu =>
    obtain ⟨hat, hcount⟩ := ClientFlags.release_counts hdirects client
    exact hmake hu hgroups hat (by simp only [closeDirect]; omega)
  | openedGroup hu => exact hmake hu (hmore hgroups false) hdirects (by simp [hcounted])
  | openedDirect hu => exact hmake hu hgroups (hmore hdirects false) (by simp [hcounted])
  | returned hu => exact hmake hu hgroups (hmore hdirects true) (by simp [hcounted]; omega)

end Tally

theorem Environment.closeReaderLogging_clients (env : Environment) (reader : Reader) :
    (env.closeReaderLogging reader).2.tally.clients = env.tally.clients := by
  have hclose : (env.closeReader reader).2.2.tally.clients = env.tally.clients := by
    unfold closeReader
    split
    next => rfl
    next => dsimp only; split <;> rfl
  unfold closeReaderLogging
  dsimp only
  split <;> exact hclose

theorem DirectRun.PumpStep.clients {env after : Environment} {run next : DirectRun α} {pump later : Pump α}
    (h : PumpStep env run pump after next later) : after.tally.clients = env.tally.clients := by
  cases h with
  | asked _ _ hs => rw [Source.step_tally hs]
  | measured _ hm => rw [measure_tally hm]
  | closed | failed => exact closeReaderLogging_clients _ _
  | _ => rfl

def Blueprint.isGrouped : Blueprint α → Bool
  | .grouped _ _ => true
  | .direct _ => false

inductive Consumer.Starts (w : World α) (blueprint : Blueprint α) :
    Except Failure Nat → World α → Consumer α → Prop where
  | refused {failure after own} : (blueprint.isGrouped = true ∨ own = none) →
      after.env.tally.clients = w.env.tally.clients →
      Starts w blueprint (.error failure) after { blueprint := blueprint, connector := .broker, token := own }
  | returned {failure after} : blueprint.isGrouped = false →
      after.env.tally.clients =
        (w.env.tally.groups, w.env.tally.directs ++ [⟨true, true⟩], w.env.tally.closedClients + 1) →
      Starts w blueprint (.error failure) after { blueprint := blueprint, connector := .broker }
  | grouped {capacity after run consumer} : blueprint.isGrouped = true →
      after.env.tally.clients =
        (w.env.tally.groups ++ [⟨true, false⟩], w.env.tally.directs, w.env.tally.closedClients) →
      after.groups = w.groups ++ [run] → run.client = w.env.tally.groups.length →
      consumer.streams = some (.group w.groups.length) → Starts w blueprint (.ok capacity) after consumer
  | direct {capacity after consumer} {i : Nat} : blueprint.isGrouped = false →
      after.env.tally.clients =
        (w.env.tally.groups, w.env.tally.directs ++ [⟨true, false⟩], w.env.tally.closedClients) →
      consumer.streams = some (.direct i) → consumer.client = some w.env.tally.directs.length →
      Starts w blueprint (.ok capacity) after consumer

theorem Consumer.start_cases (w : World α) (blueprint : Blueprint α) (token : Token) {result : Except Failure Nat}
    {after : World α} {consumer : Consumer α}
    (h : start w { blueprint := blueprint, connector := .broker } token = (result, after, consumer)) :
    Starts w blueprint result after consumer := by
  cases blueprint with
  | grouped group config =>
    obtain ⟨failure, env, own, hs, ht⟩ | ⟨env, run, own, hs, ht, hclient, _⟩ :=
        start_grouped_client w group config token
    · cases hs.symm.trans h
      exact .refused (.inl rfl) (by rw [ht])
    · cases hs.symm.trans h
      refine .grouped rfl (by rw [ht]; rfl) rfl ?_ rfl
      simp [hclient, tally]
  | direct config =>
    have hs := start_direct_readers w config token
    dsimp only at hs
    split at hs
    next =>
      obtain ⟨_, hs, rfl | ⟨n, rfl⟩⟩ := hs
      · cases hs.symm.trans h
        exact .refused (.inr rfl) rfl
      · cases hs.symm.trans h
        refine .returned rfl ?_
        rw [closeClientLogging_tally]
        simp [Tally.clients, Tally.closeDirect, ClientFlags.release, tally, Environment.count, withBroker, connected,
          DirectClient.flags, DirectService.atBroker]
    next =>
      obtain ⟨env, run, started, hs, hstreams, hclient, ht, _⟩ := hs
      cases hs.symm.trans h
      refine .direct rfl ?_ hstreams (by simp [hclient, tally])
      rw [ht]
      simp [Tally.clients, tally, Environment.count, withBroker, connected, DirectClient.flags, DirectService.atBroker]

theorem Consumer.Starts.clientStep {w after : World α} {blueprint : Blueprint α} {result : Except Failure Nat}
    {consumer : Consumer α} (h : Starts w blueprint result after consumer) :
    w.env.tally.ClientStep after.env.tally := by
  cases h with
  | refused _ hc => exact .same hc
  | returned _ hc => exact .returned hc
  | grouped _ hc => exact .openedGroup hc
  | direct _ hc => exact .openedDirect hc

namespace Chronicle

variable {c d : Chronicle α} {acts : List (Act α)}

theorem Tallied.clientStep {a : Act α} (ht : Tallied c a d) : c.world.env.tally.ClientStep d.world.env.tally := by
  cases ht with
  | aside ht => exact .same (by rw [ht]; rfl)
  | closed _ ht => exact .closedGroup _ (by rw [ht])
  | pumped _ _ hs => exact .same hs.clients
  | started hd => exact hd ▸ (Consumer.start_cases c.world _ _ rfl).clientStep
  | closedDirect ht => exact .closedDirect _ (by rw [ht])

theorem closesCounted_of_run (h : Chronicle.run {} acts = some c) : c.world.env.tally.ClosesCounted := by
  induction h using run_induction with
  | start => exact ⟨by simp [tally], rfl⟩
  | act hc ha _ ih => exact ih.step (act?_tallied (bounded_of_run hc).collects ha).clientStep

theorem Turn.run_kept {topic : String} {a : Act α} (ht : Turn topic c a d) {i : Nat} {run : GroupRun α}
    (hr : c.world.groups[i]? = some run) :
    ∃ next, d.world.groups[i]? = some next ∧ next.client = run.client := by
  have hset {j : Nat} {before next : GroupRun α} (hb : c.world.groups[j]? = some before)
      (hn : next.client = before.client) :
      ∃ later, (c.world.groups.set j next)[i]? = some later ∧ later.client = run.client := by
    by_cases hj : j = i
    · subst hj
      cases Option.some.inj (hb.symm.trans hr)
      exact ⟨next, by simp [(List.getElem?_eq_some_iff.mp hb).1], hn⟩
    · exact ⟨run, by rw [List.getElem?_set_ne hj, hr], rfl⟩
  cases ht with
  | aside | acknowledged => exact ⟨run, hr, rfl⟩
  | stepped hb hs => exact hset hb (congrArg Subscription.client hs.subscription)
  | begun => exact ⟨run, by simp [List.getElem?_append_left (List.getElem?_eq_some_iff.mp hr).1, hr], rfl⟩
  | received hb | dropped hb => exact hset hb rfl

theorem closes_performed {a : Act α} {i : Nat} (hc : c.world.collects = []) (h : c.act? a = some d)
    (hp : performedOf (c.closes d i a) ≠ []) :
    ∃ run, c.world.groups[i]? = some run ∧ d.world.env.tally = c.world.env.tally.closeGroup run.client := by
  obtain hnone | ⟨run, env, next, hr, hd, ⟨stop, hs, he⟩ | ⟨hs, he⟩⟩ := closes_cases hc h i
  · simp [hnone] at hp
  · rw [he] at hp
    obtain ⟨_, hnone⟩ | ⟨ht, _⟩ := GroupRun.stepWatch_tally hs
    · exact absurd hnone hp
    · exact ⟨run, hr, hd ▸ ht⟩
  · rw [he] at hp
    obtain ⟨_, hnone⟩ | ⟨ht, _⟩ := GroupRun.stepCloser_tally hs
    · exact absurd hnone hp
    · exact ⟨run, hr, hd ▸ ht⟩

theorem Turn.run_new {topic : String} {a : Act α} (ht : Turn topic c a d) {i : Nat} {run : GroupRun α}
    (hn : c.world.groups[i]? = none) (hr : d.world.groups[i]? = some run) :
    (d.world.env.tally.closed? (.group run.client)).isSome := by
  have hset {j : Nat} {next : GroupRun α} (hs : (c.world.groups.set j next)[i]? = some run) : False := by
    have hb : i < (c.world.groups.set j next).length := (List.getElem?_eq_some_iff.mp hs).1
    have hle : c.world.groups.length ≤ i := List.getElem?_eq_none_iff.mp hn
    rw [List.length_set] at hb
    omega
  cases ht with
  | aside | acknowledged => cases hn.symm.trans hr
  | stepped => exact (hset hr).elim
  | begun _ _ hj =>
    rw [List.getElem?_append_right (List.getElem?_eq_none_iff.mp hn), List.getElem?_singleton] at hr
    split at hr <;> cases hr
    obtain ⟨client, hc, _⟩ := hj
    simp [Tally.closed?, tally, hc]
  | received | dropped => exact (hset hr).elim

theorem closings_concat {i : Nat} {a : Act α} {first : Chronicle α} (h : first.run acts = some c)
    (ha : c.act? a = some d) : first.closings i (acts ++ [a]) = first.closings i acts ++ c.closes d i a := by
  induction acts generalizing first with
  | nil =>
    cases Option.some.inj h
    simp [closings, ha]
  | cons b rest ih =>
    obtain ⟨next, hb, hrest⟩ := Option.bind_eq_some_iff.mp h
    simp only [List.cons_append, closings, hb, ih hrest, List.append_assoc]

theorem settles_of_run (h : Chronicle.run {} acts = some c) {i : Nat} {run : GroupRun α}
    (hr : c.world.groups[i]? = some run) : run.Settles (Chronicle.closings {} i acts) :=
  (closing_of_run rfl (fun _ => rfl) (by simp) h hr).settles

/-- The client of each group run was opened, and is closed when the run has closed it. -/
structure ClientsFollow (c : Chronicle α) : Prop where
  known : ∀ (i : Nat) run, c.world.groups[i]? = some run → (c.world.env.tally.closed? (.group run.client)).isSome
  closed : ∀ (i : Nat) run result, c.world.groups[i]? = some run → run.closed = .done result →
    c.world.env.tally.closed? (.group run.client) = some true

theorem ClientsFollow.act (h : c.ClientsFollow) {a : Act α} (hc : Chronicle.run {} acts = some c)
    (ha : c.act? a = some d) (hd : Chronicle.run {} (acts ++ [a]) = some d) : d.ClientsFollow := by
  have hcollects : c.world.collects = [] := (bounded_of_run hc).collects
  obtain ⟨topic, hkept⟩ := exists_topic_kept a
  have hturn : Turn topic c a d := act?_turn ha hcollects hkept
  have hlater := (act?_tallied hcollects ha).clientStep.later
  constructor
  · intro i next hn
    cases hr : c.world.groups[i]? with
    | none => exact hturn.run_new hr hn
    | some run =>
      obtain ⟨after, hafter, hclient⟩ := hturn.run_kept hr
      cases Option.some.inj (hafter.symm.trans hn)
      exact hclient ▸ hlater.known (h.known i run hr)
  · intro i next result hn hdone
    cases hr : c.world.groups[i]? with
    | none =>
      have hidle := ((act?_closes hcollects ha i).begun next hr hn).2.1
      simp [hidle] at hdone
    | some run =>
      obtain ⟨after, hafter, hclient⟩ := hturn.run_kept hr
      cases Option.some.inj (hafter.symm.trans hn)
      -- Either this act closes the client, or the run had closed it before.
      have hbefore := (settles_of_run hc hr).outcome
      have hnow := (settles_of_run hd hn).outcome
      rw [closings_concat hc ha, performedOf_append, hdone] at hnow
      rw [hclient]
      by_cases hp : performedOf (c.closes d i a) = []
      · rw [hp, List.append_nil, hbefore] at hnow
        have hwas : run.closed = .done result := by
          cases hcell : run.closed <;> simp [hcell, CloseCell.outcome] at hnow ⊢
          exact hnow
        exact hlater.closed (h.closed i run result hr hwas)
      · obtain ⟨performer, hperformer, ht⟩ := closes_performed hcollects ha hp
        cases Option.some.inj (hperformer.symm.trans hr)
        obtain ⟨closed, hknown⟩ := Option.isSome_iff_exists.mp (h.known i run hr)
        rw [ht, Tally.closed?_closeGroup, hknown]
        simp

theorem clientsFollow_of_run (h : Chronicle.run {} acts = some c) : c.ClientsFollow := by
  induction h using run_induction with
  | start => exact ⟨by simp, by simp⟩
  | act hc ha hd ih => exact ih.act hc ha hd

end Chronicle

end TopicConsumer
