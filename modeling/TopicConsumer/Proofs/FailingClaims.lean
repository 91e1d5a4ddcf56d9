import Mathlib.Data.List.Count
import Mathlib.Data.Prod.Lex
import TopicConsumer.CollectRun
import TopicConsumer.Proofs.Chronicle

namespace TopicConsumer

open Environment

variable {α : Type}

def Claim.failures (claim : Claim α) : List Failure :=
  match claim.result? with
  | some (.error failure) => [failure]
  | _ => []

@[simp]
theorem Claim.mem_failures {claim : Claim α} {failure : Failure} :
    failure ∈ claim.failures ↔ claim.result? = some (.error failure) := by
  unfold Claim.failures
  split
  next h => simp [h, eq_comm]
  next h => simpa using fun he => h _ he

theorem Claim.isOver_of_result? {claim : Claim α} {result : Except Failure Unit}
    (h : claim.result? = some result) : claim.isOver = true := by
  unfold Claim.result? at h
  split at h
  next hp => simp [Claim.isOver, hp]
  next => simp at h

theorem Claim.outcome?_of_result? {claim : Claim α} {result : Except Failure Unit} (h : claim.result? = some result)
    (report : String) : claim.outcome? report = some result := by
  unfold Claim.result? at h
  split at h
  next hp => rwa [Claim.outcome?, hp]
  next => simp at h

theorem Claim.result?_of_outcome?_ok {claim : Claim α} {report : String}
    (h : claim.outcome? report = some (.ok ())) : claim.result? = some (.ok ()) := by
  unfold Claim.outcome? at h
  split at h
  next hp => rwa [Claim.result?, hp]
  next => simp at h
  next => simp at h

theorem Claim.outcome?_error {claim : Claim α} {report : String} {failure : Failure}
    (h : claim.outcome? report = some (.error failure)) : failure ∈ claim.failures ∨
      claim.phase = .crashed ∧ failure = .broker ("claim task failed: " ++ report) := by
  unfold Claim.outcome? at h
  split at h
  next hp =>
    refine .inl (Claim.mem_failures.mpr ?_)
    rwa [Claim.result?, hp]
  next hp => exact .inr ⟨hp, by simpa using h.symm⟩
  next => simp at h

/-- What a handler may do to its claim: anything, as long as it has neither returned nor panicked. -/
def Claim.Handled (claim later : Claim α) : Prop := claim.isOver = false ∧ later.joined = claim.joined

namespace Session

def Undecided (s : Session α) : Prop := (∃ todo, s.phase = .opening todo) ∨ s.phase = .serving

/-- Neither cancellation nor a closed client ends the session. -/
def Wanted (env : Environment) (s : Session α) : Prop :=
  env.cancelled s.token = false ∧ env.groupClosed s.client = false

/-- A topic or a partition that a session was to open is unknown. -/
def Unopened (failure : Failure) : Prop :=
  (∃ name, failure = .broker ("unknown topic '" ++ name ++ "'")) ∨
    ∃ key, failure = .broker ("unknown partition " ++ Broker.keyText key)

/-- The steps of a session, which may learn of the ends of its claims in any order. -/
inductive Steps (env : Environment) (s : Session α) : Environment → Session α → Prop where
  | own {after t} : s.step env = some (after, t) → Steps env s after t
  | learned {after t} : s.phase = .serving → ServingStep env s after t → Steps env s after t

/-- A session at the broker with the failures that its claims have returned, and whether a rebalance came before it
knew what it returns. Each claim is in the hands of some handler, which may do anything. All else may do anything as
well, but as long as the session does not know what it returns, it is not cancelled and its client is not closed. -/
inductive Course : Environment → Session α → List Failure → Bool → Prop where
  | begun {env after : Environment} {client : Nat} {group : String} {start : StartOffset}
      {topics : List String} {token : Token} {s : Session α} : env.Joined client group start →
      begin env client topics token = (.ok s, after) → s.Wanted after → Course after s [] false
  | stepped {env after s t failed rebalanced} : Course env s failed rebalanced → s.Steps env after t →
      Course after t failed rebalanced
  | handled {env s failed rebalanced} {i : Nat} {claim later : Claim α} : Course env s failed rebalanced →
      s.claims[i]? = some claim → claim.Handled later →
      Course env { s with claims := s.claims.set i later } (failed ++ later.failures) rebalanced
  | meanwhile {env after s failed rebalanced} : Course env s failed rebalanced → env.Later after →
      (s.Undecided → s.Wanted after ∧ after.broker.generation = env.broker.generation) →
      Course after s failed rebalanced
  | rebalanced {env s failed rebalanced} : Course env s failed rebalanced → s.Undecided →
      Course (env.withBroker env.broker.rebalance) s failed true

/-- Some claim has failed: its handler has returned a failure or panicked. -/
def Failing (s : Session α) (failed : List Failure) : Prop :=
  failed ≠ [] ∨ ∃ claim ∈ s.claims, claim.phase = .crashed

/-- The results that a session comes to. What it could not open always counts. Otherwise a rebalance makes a clean
session of it, and without one it has the failure of one of its claims. -/
def Justified (s : Session α) (failed : List Failure) (rebalanced : Bool) : Except Failure Unit → Prop
  | .ok () => rebalanced = true
  | .error failure => Unopened failure ∨ rebalanced = false ∧ (failure ∈ failed ∨
      (∃ claim ∈ s.claims, claim.phase = .crashed) ∧ ∃ report, failure = .broker ("claim task failed: " ++ report))

/-- What a session has left to do, which every step of its own lessens: topics to open, and then partitions to open or
claims to hear of. -/
def remaining (s : Session α) : ℕ ×ₗ ℕ :=
  match s.phase with
  | .opening todo => toLex (todo.countP (· matches .topic _) + 1, todo.length)
  | .serving => toLex (0, s.claims.countP (!·.joined) + 2)
  | .draining _ => toLex (0, 1)
  | _ => toLex (0, 0)

variable {env after : Environment} {s t : Session α}

theorem returned?_none {report : String} (h : s.returned? report = none) {claim : Claim α} (hc : claim ∈ s.claims)
    (hj : claim.joined = false) : claim.outcome? report = none := by
  obtain ⟨i, hi, rfl⟩ := List.getElem_of_mem hc
  have hnone := List.findSome?_eq_none_iff.mp h (i, s.claims[i]) (List.mem_mapIdx.mpr ⟨i, hi, rfl⟩)
  simpa [hj] using hnone

theorem partitionCount_error {b : Broker} {name : String} {failure : Failure}
    (h : b.partitionCount name = .error failure) : Unopened failure := by
  unfold Broker.partitionCount at h
  split at h <;> cases h
  exact .inl ⟨name, rfl⟩

theorem open?_error {b : Broker} {key : PartitionKey} {position : Int} {failure : Failure}
    (h : Cursor.open? b key position = .error failure) : Unopened failure := by
  unfold Cursor.open? Broker.watch at h
  split at h
  next hw =>
    cases h
    split at hw <;> cases hw
    exact .inr ⟨key, rfl⟩
  next => simp at h

/-- What a session knows of its claims, and how it comes to the result that it returns. -/
structure Answers (env : Environment) (s : Session α) (failed : List Failure) (rebalanced : Bool) : Prop where
  token : s.token ≠ []
  calm : s.Undecided → s.Wanted env
  generation : s.Undecided → s.generation ≤ env.broker.generation ∧
    (rebalanced = true ↔ env.broker.generation ≠ s.generation)
  heard : ∀ claim ∈ s.claims, ∀ failure ∈ claim.failures, failure ∈ failed
  kept : s.Undecided → ∀ failure ∈ failed, ∃ claim ∈ s.claims, failure ∈ claim.failures
  joins : ∀ claim ∈ s.claims, claim.joined = true → claim.result? = some (.ok ())
  decided : s.Undecided ∨ ∃ result, s.Justified failed rebalanced result ∧
    (s.phase = .draining result ∧ env.cancelled s.token = true ∨ s.phase = .ended result)

variable {failed : List Failure} {rebalanced : Bool}

theorem not_undecided {result : Except Failure Unit} (hp : s.phase = .draining result ∨ s.phase = .ended result) :
    ¬ s.Undecided := by
  rcases hp with hp | hp <;> simp [Undecided, hp]

theorem answers_decided (ht : s.token ≠ []) (hheard : ∀ claim ∈ s.claims, ∀ failure ∈ claim.failures, failure ∈ failed)
    (hjoins : ∀ claim ∈ s.claims, claim.joined = true → claim.result? = some (.ok ())) {result : Except Failure Unit}
    (hr : s.Justified failed rebalanced result)
    (hp : s.phase = .draining result ∧ env.cancelled s.token = true ∨ s.phase = .ended result) :
    s.Answers env failed rebalanced := by
  have hn : ¬ s.Undecided := not_undecided (hp.imp_left And.left)
  exact ⟨ht, fun hu => absurd hu hn, fun hu => absurd hu hn, hheard, fun hu => absurd hu hn, hjoins,
    .inr ⟨result, hr, hp⟩⟩

/-- A session that winds up keeps its claims, and tells their handlers to stop. -/
theorem Answers.windUp (h : s.Answers env failed rebalanced) {result : Except Failure Unit}
    (hr : s.Justified failed rebalanced result) :
    ({ s with phase := .draining result } : Session α).Answers (env.cancel s.token) failed rebalanced :=
  answers_decided h.token h.heard h.joins hr (.inl ⟨rfl, Tokens.isCancelled_self h.token⟩)

theorem justified_of_unopened {failure : Failure} (hf : Unopened failure) :
    s.Justified failed rebalanced (.error failure) := .inl hf

/-- A session that fails to open forgets its claims. -/
theorem answers_unopened (ht : s.token ≠ []) {failure : Failure} (hf : Unopened failure) :
    ({ s with phase := .ended (.error failure), claims := [] } : Session α).Answers env failed rebalanced :=
  answers_decided ht (by simp) (by simp) (justified_of_unopened hf) (.inr rfl)

theorem Answers.rephased (h : s.Answers env failed rebalanced) (hu : s.Undecided) {phase : SessionPhase}
    (hn : ({ s with phase := phase } : Session α).Undecided) :
    ({ s with phase := phase } : Session α).Answers env failed rebalanced :=
  ⟨h.token, fun _ => h.calm hu, fun _ => h.generation hu, h.heard, fun _ => h.kept hu, h.joins, .inl hn⟩

theorem Answers.opened (h : s.Answers env failed rebalanced) {todo : List Opening} (hp : s.phase = .opening todo) :
    (s.stepOpening env todo).Answers env failed rebalanced := by
  have hu : s.Undecided := .inl ⟨todo, hp⟩
  unfold stepOpening
  split
  next => exact h.rephased hu (.inr rfl)
  next =>
    split
    next he => exact answers_unopened h.token (partitionCount_error he)
    next => exact h.rephased hu (.inl ⟨_, rfl⟩)
  next =>
    split
    next he => exact answers_unopened h.token (open?_error he)
    next cursor _ =>
      refine ⟨h.token, fun _ => h.calm hu, fun _ => h.generation hu, ?_, fun _ failure hm => ?_, ?_,
        .inl (.inl ⟨_, rfl⟩)⟩
      · simpa [List.mem_append, or_imp, forall_and, Claim.result?] using h.heard
      · obtain ⟨claim, hc, hf⟩ := h.kept hu failure hm
        exact ⟨claim, List.mem_append_left _ hc, hf⟩
      · simpa [List.mem_append, or_imp, forall_and] using h.joins

theorem Answers.served (h : s.Answers env failed rebalanced) (hp : s.phase = .serving)
    (hs : ServingStep env s after t) : t.Answers after failed rebalanced := by
  have hu : s.Undecided := .inr hp
  have hcalm : s.Wanted env := h.calm hu
  cases hs with
  | cancelled hc => simp [hcalm.1] at hc
  | closed hc => simp [hcalm.2] at hc
  | rebalanced hg => exact h.windUp ((h.generation hu).2.mpr hg)
  | @joined i claim _ hi _ hr =>
    refine ⟨h.token, fun _ => hcalm, fun _ => h.generation hu, fun c hc failure hf => ?_, fun _ failure hm => ?_,
      fun c hc hj => ?_, .inl (.inr hp)⟩
    · obtain hc | ⟨d, hd, rfl⟩ := mem_modify_cases hc
      · exact h.heard c hc failure hf
      · exact h.heard d (List.mem_of_getElem? hd) failure hf
    · obtain ⟨c, hc, hf⟩ := h.kept hu failure hm
      obtain ⟨d, hd, rfl | rfl⟩ := mem_modify i (fun c => { c with joined := true }) hc
      · exact ⟨_, hd, hf⟩
      · exact ⟨_, hd, hf⟩
    · obtain hc | ⟨d, hd, rfl⟩ := mem_modify_cases hc
      · exact h.joins c hc hj
      · cases Option.some.inj (hd.symm.trans hi)
        exact Claim.result?_of_outcome?_ok hr
  | @failed claim failure hd hc _ hr =>
    have hnone : rebalanced = false := by
      rw [← Bool.not_eq_true, (h.generation hu).2]
      exact fun hg => hg hd.generation
    refine h.windUp (.inr ⟨hnone, ?_⟩)
    obtain hf | ⟨hcrashed, hf⟩ := Claim.outcome?_error hr
    · exact .inl (h.heard claim hc failure hf)
    · exact .inr ⟨⟨claim, hc, hcrashed⟩, _, hf⟩

theorem Answers.phase_cases (h : s.Answers env failed rebalanced) : (∃ todo, s.phase = .opening todo) ∨
    s.phase = .serving ∨ ∃ result, s.phase = .draining result ∨ s.phase = .ended result := by
  obtain (ho | hp) | ⟨result, _, hp⟩ := h.decided
  · exact .inl ho
  · exact .inr (.inl hp)
  · exact .inr (.inr ⟨result, hp.imp_left And.left⟩)

theorem Answers.result (h : s.Answers env failed rebalanced) {result : Except Failure Unit}
    (hp : s.phase = .draining result ∨ s.phase = .ended result) : s.Justified failed rebalanced result := by
  obtain hu | ⟨found, hr, hfound⟩ := h.decided
  · exact absurd hu (not_undecided hp)
  · have he : result = found := by
      rcases hp with hp | hp <;> rcases hfound with ⟨hfound, _⟩ | hfound <;> simp_all
    rwa [he]

theorem Answers.stepped (h : s.Answers env failed rebalanced) (hs : s.Steps env after t) :
    t.Answers after failed rebalanced := by
  cases hs with
  | learned hp hs => exact h.served hp hs
  | own hs =>
    obtain ⟨todo, hp⟩ | hp | ⟨result, hp | hp⟩ := h.phase_cases <;> simp only [Session.step, hp] at hs
    · cases hs
      exact h.opened hp
    · exact h.served hp (stepServing_cases hs)
    · split at hs <;> cases hs
      have hr : s.Justified failed rebalanced result := h.result (.inl hp)
      exact answers_decided h.token h.heard h.joins hr (.inr rfl)
    · simp at hs

theorem exists_claim_set {i : Nat} {claim later other : Claim α} (hi : s.claims[i]? = some claim)
    (hc : claim.isOver = false) (ho : other ∈ s.claims) (hover : other.isOver = true) :
    other ∈ s.claims.set i later := by
  obtain ⟨j, hj⟩ := List.mem_iff_getElem?.mp ho
  have hne : i ≠ j := by
    rintro rfl
    cases Option.some.inj (hi.symm.trans hj)
    simp [hc] at hover
  exact List.mem_iff_getElem?.mpr ⟨j, by rwa [List.getElem?_set_ne hne]⟩

theorem Justified.handled {result : Except Failure Unit} (h : s.Justified failed rebalanced result) {i : Nat}
    {claim later : Claim α} (hi : s.claims[i]? = some claim) (hh : claim.Handled later) :
    Justified { s with claims := s.claims.set i later } (failed ++ later.failures) rebalanced result := by
  cases result with
  | ok => exact h
  | error failure =>
    refine h.imp_right fun ⟨hr, hf⟩ => ⟨hr, hf.imp (List.mem_append_left _) ?_⟩
    rintro ⟨⟨other, ho, hp⟩, hreport⟩
    exact ⟨⟨other, exists_claim_set hi hh.1 ho (by simp [Claim.isOver, hp]), hp⟩, hreport⟩

theorem Answers.handled (h : s.Answers env failed rebalanced) {i : Nat} {claim later : Claim α}
    (hi : s.claims[i]? = some claim) (hh : claim.Handled later) :
    Answers env { s with claims := s.claims.set i later } (failed ++ later.failures) rebalanced := by
  have hb : i < s.claims.length := (List.getElem?_eq_some_iff.mp hi).1
  refine ⟨h.token, h.calm, h.generation, fun c hc failure hf => ?_, fun hu failure hm => ?_, fun c hc hjc => ?_, ?_⟩
  · obtain hc | rfl := List.mem_or_eq_of_mem_set hc
    · exact List.mem_append_left _ (h.heard c hc failure hf)
    · exact List.mem_append_right _ hf
  · obtain hm | hm := List.mem_append.mp hm
    · obtain ⟨c, hc, hf⟩ := h.kept hu failure hm
      exact ⟨c, exists_claim_set hi hh.1 hc (Claim.isOver_of_result? (Claim.mem_failures.mp hf)), hf⟩
    · exact ⟨later, List.mem_set hb later, hm⟩
  · obtain hc | rfl := List.mem_or_eq_of_mem_set hc
    · exact h.joins c hc hjc
    · have hr : claim.result? = some (.ok ()) := h.joins claim (List.mem_of_getElem? hi) (hh.2 ▸ hjc)
      have ho := hh.1
      rw [Claim.isOver_of_result? hr] at ho
      simp at ho
  · exact h.decided.imp id fun ⟨result, hr, hp⟩ => ⟨result, hr.handled hi hh, hp⟩

theorem Answers.meanwhile (h : s.Answers env failed rebalanced) (hl : env.Later after)
    (hu : s.Undecided → s.Wanted after ∧ after.broker.generation = env.broker.generation) :
    s.Answers after failed rebalanced where
  calm hs := (hu hs).1
  generation hs := by
    rw [(hu hs).2]
    exact h.generation hs
  heard := h.heard
  kept := h.kept
  joins := h.joins
  token := h.token
  decided := h.decided.imp id fun ⟨result, hr, hp⟩ =>
    ⟨result, hr, hp.imp_left fun ⟨hp, hc⟩ => ⟨hp, hl.cancelled s.token hc⟩⟩

theorem Answers.disturbed (h : s.Answers env failed rebalanced) (hu : s.Undecided) :
    s.Answers (env.withBroker env.broker.rebalance) failed true where
  calm hs := h.calm hs
  generation _ := by
    have hle := (h.generation hu).1
    have hmore : (env.withBroker env.broker.rebalance).broker.generation = env.broker.generation + 1 := rfl
    rw [hmore]
    exact ⟨by omega, by simp; omega⟩
  heard := h.heard
  kept := h.kept
  joins := h.joins
  token := h.token
  decided := .inl hu

theorem Course.answers (h : Course env s failed rebalanced) : s.Answers env failed rebalanced := by
  induction h with
  | begun hj hb hw =>
    obtain ⟨c, hc, hservice⟩ := hj
    unfold begin Environment.groupClient? at hb
    simp only [hc, hservice] at hb
    split at hb
    next => simp at hb
    next =>
      cases hb
      exact ⟨by simp [Tokens.derive], fun _ => hw, fun _ => ⟨Nat.le_refl _, by simp [Broker.startSession]⟩, by simp,
        by simp, by simp, .inl (.inl ⟨_, rfl⟩)⟩
  | stepped _ hs ih => exact ih.stepped hs
  | handled _ hi hh ih => exact ih.handled hi hh
  | meanwhile _ hl hu ih => exact ih.meanwhile hl hu
  | rebalanced _ hu ih => exact ih.disturbed hu

theorem remaining_opened {todo : List Opening} (hp : s.phase = .opening todo) :
    (s.stepOpening env todo).remaining < s.remaining := by
  unfold stepOpening
  split
  next =>
    simp only [remaining, hp]
    exact Prod.Lex.toLex_lt_toLex.mpr (.inl (Nat.succ_pos _))
  next =>
    split
    next =>
      simp only [remaining, hp]
      exact Prod.Lex.toLex_lt_toLex.mpr (.inl (Nat.succ_pos _))
    next n _ =>
      simp only [remaining, hp]
      refine Prod.Lex.toLex_lt_toLex.mpr (.inl ?_)
      simp [List.countP_append, List.countP_map, Function.comp_def]
  next =>
    split
    next =>
      simp only [remaining, hp]
      exact Prod.Lex.toLex_lt_toLex.mpr (.inl (Nat.succ_pos _))
    next =>
      simp only [remaining, hp]
      refine Prod.Lex.toLex_lt_toLex.mpr (.inr ⟨?_, Nat.lt_succ_self _⟩)
      simp

theorem remaining_served (hp : s.phase = .serving) (hs : ServingStep env s after t) :
    t.remaining < s.remaining := by
  have hwound {result : Except Failure Unit} :
      ({ s with phase := .draining result } : Session α).remaining < s.remaining := by
    simp only [remaining, hp]
    exact Prod.Lex.toLex_lt_toLex.mpr (.inr ⟨rfl, by omega⟩)
  cases hs with
  | cancelled | closed | rebalanced | failed => exact hwound
  | @joined i claim _ hi hj _ =>
    obtain ⟨hb, rfl⟩ := List.getElem?_eq_some_iff.mp hi
    have hone : 1 ≤ s.claims.countP (!·.joined) :=
      List.one_le_countP_iff.mpr ⟨_, List.getElem_mem hb, by simp [hj]⟩
    have hleft : (s.claims.modify i fun c => { c with joined := true }).countP (!·.joined) + 1 =
        s.claims.countP (!·.joined) := by
      rw [List.modify_eq_set_get _ hb, List.get_eq_getElem, List.countP_set hb, hj]
      exact Nat.sub_add_cancel hone
    simp only [remaining, hp]
    exact Prod.Lex.toLex_lt_toLex.mpr (.inr ⟨rfl, by omega⟩)

/-- Every step of a session brings it nearer to its end. -/
theorem Answers.remaining_lt (h : s.Answers env failed rebalanced) (hs : s.Steps env after t) :
    t.remaining < s.remaining := by
  cases hs with
  | learned hp hs => exact remaining_served hp hs
  | own hs =>
    obtain ⟨todo, hp⟩ | hp | ⟨result, hp | hp⟩ := h.phase_cases <;> simp only [Session.step, hp] at hs
    · cases hs
      exact remaining_opened hp
    · exact remaining_served hp (stepServing_cases hs)
    · split at hs <;> cases hs
      simp only [remaining, hp]
      exact Prod.Lex.toLex_lt_toLex.mpr (.inr ⟨rfl, Nat.one_pos⟩)
    · simp at hs

/-- Handlers at work do not keep a session from its end. -/
theorem remaining_handled {i : Nat} {claim later : Claim α} (hi : s.claims[i]? = some claim)
    (hh : claim.Handled later) : ({ s with claims := s.claims.set i later } : Session α).remaining = s.remaining := by
  obtain ⟨hb, rfl⟩ := List.getElem?_eq_some_iff.mp hi
  have hcount : (s.claims.set i later).countP (!·.joined) = s.claims.countP (!·.joined) := by
    have hle := List.boole_getElem_le_countP (p := fun c : Claim α => !c.joined) hb
    rw [List.countP_set hb, hh.2]
    omega
  cases hp : s.phase <;> simp only [remaining, hp, hcount]

/-- A session that does not know what it returns has not heard of any failing claim. -/
theorem Answers.exists_failing (h : s.Answers env failed rebalanced) (hu : s.Undecided) (hf : s.Failing failed)
    (report : String) : ∃ claim ∈ s.claims, claim.joined = false ∧
      ∃ failure, claim.outcome? report = some (.error failure) := by
  obtain ⟨claim, hc, failure, hfail⟩ :
      ∃ claim ∈ s.claims, ∃ failure, claim.outcome? report = some (.error failure) := by
    obtain hf | ⟨claim, hc, hp⟩ := hf
    · obtain ⟨failure, hm⟩ := List.exists_mem_of_ne_nil failed hf
      obtain ⟨claim, hc, hfail⟩ := h.kept hu failure hm
      exact ⟨claim, hc, failure, Claim.outcome?_of_result? (Claim.mem_failures.mp hfail) report⟩
    · exact ⟨claim, hc, _, by rw [Claim.outcome?, hp]⟩
  refine ⟨claim, hc, Bool.eq_false_iff.mpr fun hj => ?_, failure, hfail⟩
  have hok := Claim.outcome?_of_result? (h.joins claim hc hj) report
  simp [hfail] at hok

theorem Answers.told (h : s.Answers env failed rebalanced) {result : Except Failure Unit}
    (hp : s.phase = .draining result) : env.cancelled s.token = true := by
  obtain hu | ⟨_, _, ⟨_, hc⟩ | hended⟩ := h.decided
  · exact absurd hu (not_undecided (.inl hp))
  · exact hc
  · simp [hp] at hended

/-- As soon as a claim has failed, the session goes on until it has to wait for handlers that have been told to
stop. -/
theorem Answers.proceeds (h : s.Answers env failed rebalanced) (hf : s.Failing failed) :
    (∃ result, s.phase = .ended result) ∨ (∃ after t, s.step env = some (after, t)) ∨
      (∃ result, s.phase = .draining result) ∧ env.cancelled s.token = true ∧
        ∃ claim ∈ s.claims, claim.isOver = false := by
  obtain ⟨todo, hp⟩ | hp | ⟨result, hp | hp⟩ := h.phase_cases
  · exact .inr (.inl ⟨_, _, by simp only [Session.step, hp]; rfl⟩)
  · have hcalm : s.Wanted env := h.calm (.inr hp)
    obtain ⟨claim, hc, hj, failure, hfail⟩ := h.exists_failing (.inr hp) hf env.panicReport
    refine .inr (.inl ?_)
    simp only [Session.step, hp, stepServing, hcalm.1, hcalm.2, Bool.false_eq_true, if_false]
    split
    next => exact ⟨_, _, rfl⟩
    next =>
      cases hret : s.returned? env.panicReport with
      | none => simp [returned?_none hret hc hj] at hfail
      | some found =>
        obtain ⟨i, _ | _⟩ := found
        · exact ⟨_, _, rfl⟩
        · exact ⟨_, _, rfl⟩
  · by_cases ho : s.claims.all Claim.isOver
    · exact .inr (.inl ⟨_, _, by simp only [Session.step, hp, ho]; rfl⟩)
    · exact .inr (.inr ⟨⟨result, hp⟩, h.told hp, by simpa using ho⟩)
  · exact .inl ⟨result, hp⟩

end Session

theorem Broker.takeFailure_generation {b after : Broker} {key : PartitionKey} {reason : String}
    (h : b.takeFailure key = some (reason, after)) : after.generation = b.generation := by
  unfold takeFailure at h
  split at h
  next => simp at h
  next => split at h <;> cases h; rfl

theorem Cursor.step_generation {b after : Broker} {c d : Cursor} {checks : Bool} {stage : Stage} {found : Found}
    (h : c.step b checks stage = some (after, d, found)) : after.generation = b.generation := by
  cases stage with
  | marking =>
    cases h
    rfl
  | checking =>
    simp only [step] at h
    split at h <;> cases h
    next hf => exact Broker.takeFailure_generation hf
    next => rfl
  | looking =>
    simp only [step] at h
    split at h <;> cases h <;> rfl
  | parked =>
    simp only [step] at h
    split at h
    next =>
      cases h
      rfl
    next => split at h <;> cases h; rfl

/-- What may end a session is as it was. -/
structure Environment.Undisturbing (before after : Environment) : Prop where
  tokens : after.tokens = before.tokens
  clients : after.groupClients = before.groupClients
  generation : after.broker.generation = before.broker.generation
  later : before.Later after

theorem Environment.undisturbing_broker {env : Environment} {b : Broker} (h : b.generation = env.broker.generation) :
    env.Undisturbing { env with broker := b } := ⟨rfl, rfl, h, .of_eq rfl rfl rfl⟩

theorem Environment.measure_undisturbing {env after : Environment} {group : String} {source : Source} {record : Record}
    (h : env.measure group source record = .ok after) : env.Undisturbing after := by
  unfold measure at h
  dsimp only at h
  split at h <;> cases h
  exact ⟨rfl, rfl, rfl, .of_eq rfl rfl rfl⟩

theorem Claim.ask_generation {claim later : Claim α} {broker after : Broker} {stage : Stage} {found : Found}
    (h : claim.ask broker stage = some (after, later, found)) : after.generation = broker.generation := by
  obtain ⟨⟨b, source, asked⟩, hs, he⟩ := Option.map_eq_some_iff.mp h
  have hb : after = b := by cases asked <;> cases he <;> rfl
  rw [hb]
  cases hsource : claim.source with
  | log c =>
    rw [hsource] at hs
    obtain ⟨_, hc, he⟩ := Option.map_eq_some_iff.mp hs
    cases he
    exact Cursor.step_generation hc
  | feed f =>
    rw [hsource] at hs
    obtain ⟨_, _, he⟩ := Option.map_eq_some_iff.mp hs
    cases he
    rfl

theorem Claim.ask_handled {claim later : Claim α} {broker after : Broker} {stage : Stage} {found : Found}
    (hp : claim.phase = .asking stage) (h : claim.ask broker stage = some (after, later, found)) :
    claim.Handled later := by
  have ho : claim.isOver = false := by simp [Claim.isOver, hp]
  unfold Claim.ask at h
  obtain ⟨⟨_, source, found⟩, _, he⟩ := Option.map_eq_some_iff.mp h
  cases found <;> cases he <;> exact ⟨ho, rfl⟩

theorem GroupRun.HandlerStep.handled {env after : Environment} {run next : GroupRun α} {session : Token}
    {claim later : Claim α} (h : HandlerStep env run session claim after next later) : claim.Handled later := by
  refine ⟨h.running, ?_⟩
  cases h with
  | asked hp ha => exact (Claim.ask_handled hp ha).2
  | _ => rfl

theorem GroupRun.HandlerStep.undisturbing {env after : Environment} {run next : GroupRun α} {session : Token}
    {claim later : Claim α} (h : HandlerStep env run session claim after next later) : env.Undisturbing after := by
  cases h with
  | asked _ ha => exact undisturbing_broker (Claim.ask_generation ha)
  | measured _ hm => exact measure_undisturbing hm
  | stopped | crashed | rejected | decoded | queued | unheard => exact undisturbing_broker rfl

theorem CollectRun.stepHandler_handled {env after : Environment} {run next : CollectRun α} {session : Token}
    {claim later : Claim α} {stop : Bool}
    (h : run.stepHandler env session claim stop = some (after, next, later)) :
    claim.Handled later ∧ env.Undisturbing after := by
  unfold CollectRun.stepHandler at h
  split at h
  next stage hp =>
    have ho : claim.isOver = false := by simp [Claim.isOver, hp]
    split at h
    next =>
      split at h <;> cases h
      exact ⟨⟨ho, rfl⟩, undisturbing_broker rfl⟩
    next =>
      split at h
      next =>
        split at h <;> cases h
        exact ⟨⟨ho, rfl⟩, undisturbing_broker rfl⟩
      next =>
        obtain ⟨⟨_, asked, _⟩, ha, he⟩ := Option.map_eq_some_iff.mp h
        cases he
        refine ⟨⟨ho, ?_⟩, undisturbing_broker (Claim.ask_generation ha)⟩
        have hj : asked.joined = claim.joined := (Claim.ask_handled hp ha).2
        split <;> exact hj
  next hp =>
    split at h <;> cases h
    refine ⟨⟨by simp [Claim.isOver, hp], rfl⟩, ?_⟩
    split <;> exact undisturbing_broker rfl
  next => simp at h

namespace Session

variable {env after : Environment} {s : Session α} {failed : List Failure} {rebalanced : Bool} {i : Nat} {stop : Bool}

theorem Course.undisturbed (h : Course env s failed rebalanced) (hu : env.Undisturbing after) :
    Course after s failed rebalanced := by
  refine h.meanwhile hu.later fun hs => ⟨?_, hu.generation⟩
  obtain ⟨hcancelled, hclosed⟩ := h.answers.calm hs
  constructor
  · rw [Environment.cancelled, hu.tokens]
    exact hcancelled
  · rw [Environment.groupClosed, Environment.groupClient?, hu.clients]
    exact hclosed

/-- What a handler does in the session of a group run belongs to the course of the session. -/
theorem Course.claimed (h : Course env s failed rebalanced) {run next : GroupRun α} (hl : run.loop = .serving s)
    (hs : run.stepClaim env i stop = some (after, next)) :
    ∃ t more, next.loop = .serving t ∧ t.remaining = s.remaining ∧ Course after t (failed ++ more) rebalanced := by
  obtain ⟨session, claim, handled, later, hl', hi, hh, rfl⟩ := GroupRun.stepClaim_cases hs
  cases hl.symm.trans hl'
  exact ⟨_, later.failures, rfl, remaining_handled hi hh.handled,
    (h.undisturbed hh.undisturbing).handled hi hh.handled⟩

theorem Course.collected (h : Course env s failed rebalanced) {run next : CollectRun α} (hl : run.session = some s)
    (hs : run.stepClaim env i stop = some (after, next)) :
    ∃ t more, next.session = some t ∧ t.remaining = s.remaining ∧ Course after t (failed ++ more) rebalanced := by
  simp only [CollectRun.stepClaim, hl] at hs
  split at hs
  next => simp at hs
  next claim hi =>
    split at hs
    next => simp at hs
    next later hh =>
      cases hs
      obtain ⟨hhandled, hundisturbing⟩ := CollectRun.stepHandler_handled hh
      exact ⟨_, later.failures, rfl, remaining_handled hi hhandled, (h.undisturbed hundisturbing).handled hi hhandled⟩

end Session

namespace Streak

/-- The streak goes on: it has not become shorter, and it began when it began. -/
def Continues (before after : Streak) : Prop :=
  before.failures.toNat ≤ after.failures.toNat ∧ ∀ time, before.since = some time → after.since = some time

theorem continues_refl (streak : Streak) : streak.Continues streak := ⟨Nat.le_refl _, fun _ h => h⟩

theorem continues_extend (streak : Streak) (now : Nat) : streak.Continues (streak.extend now) := by
  refine ⟨?_, fun time h => by simp [extend, h]⟩
  unfold extend
  dsimp only
  split
  next h =>
    unfold maxCount at h
    rw [UInt32.toNat_add, UInt32.toNat_one, Nat.mod_eq_of_lt (by omega)]
    exact Nat.le_succ _
  next => exact Nat.le_refl _

end Streak

namespace GroupRun

theorem afterSession_error (env : Environment) (run : GroupRun α) (failure : Failure) :
    let next := (run.afterSession env (.error failure)).2
    next.loop ≠ .top ∧ run.streak.Continues next.streak := by
  unfold afterSession
  split
  next he => simp at he
  next => exact ⟨by simp, Streak.continues_refl _⟩
  next =>
    dsimp only
    split
    next => exact ⟨by simp, Streak.continues_extend _ _⟩
    next => exact ⟨by simp, Streak.continues_extend _ _⟩

end GroupRun

/-- A session comes to a result by steps of its own. -/
inductive Session.Leads : Environment → Session α → Except Failure Unit → Prop where
  | ended {env s result} : s.phase = .ended result → Leads env s result
  | step {env after s t result} : s.step env = some (after, t) → Leads after t result → Leads env s result

/-- What becomes of a session of which some claim has failed. -/
structure Session.TellsFailure (env : Environment) (s : Session α) (failed : List Failure) (rebalanced : Bool) :
    Prop where
  result : ∀ result, s.phase = .ended result → s.Justified failed rebalanced result
  /-- The session does not go on for ever, whatever its handlers do, and waits for nothing but those that have been told
  to stop. -/
  lessens : ∀ after t, s.Steps env after t → t.remaining < s.remaining
  handled : ∀ i claim later, s.claims[i]? = some claim → claim.Handled later →
    ({ s with claims := s.claims.set i later } : Session α).remaining = s.remaining
  /-- What the handlers of a group run do, and those that collect records, belongs to the course of the session. -/
  claimed : ∀ (run : GroupRun α) i stop after next, run.loop = .serving s →
    run.stepClaim env i stop = some (after, next) →
    ∃ t more, next.loop = .serving t ∧ t.remaining = s.remaining ∧ Course after t (failed ++ more) rebalanced
  collected : ∀ (run : CollectRun α) i stop after next, run.session = some s →
    run.stepClaim env i stop = some (after, next) →
    ∃ t more, next.session = some t ∧ t.remaining = s.remaining ∧ Course after t (failed ++ more) rebalanced
  proceeds : (∃ result, s.phase = .ended result) ∨ (∃ after t, s.step env = some (after, t)) ∨
    (∃ result, s.phase = .draining result) ∧ env.cancelled s.token = true ∧ ∃ claim ∈ s.claims, claim.isOver = false
  returns : (∀ todo, s.phase ≠ .opening todo) → (∀ claim ∈ s.claims, claim.isOver = true) →
    ∃ result, s.Leads env result ∧ s.Justified failed rebalanced result
  /-- A session that returns a failure makes the streak of the session loop longer, and one that hides it ends the
  streak. -/
  streak : ∀ (run : GroupRun α) stop after next result, run.loop = .serving s → s.phase = .ended result →
    run.stepLoop env stop = some (after, next) →
    (result ≠ .ok () → next.loop ≠ .top ∧ run.streak.Continues next.streak) ∧
      (result = .ok () → next.loop = .top ∧ next.streak = {})

namespace Session

variable {env after : Environment} {s t : Session α} {failed : List Failure} {rebalanced : Bool}

/-- A session that has opened all leaves its claims to their handlers. -/
theorem Answers.phases_kept (h : s.Answers env failed rebalanced) (hn : ∀ todo, s.phase ≠ .opening todo)
    (hs : s.step env = some (after, t)) :
    (∀ todo, t.phase ≠ .opening todo) ∧ t.claims.map (·.phase) = s.claims.map (·.phase) := by
  obtain ⟨todo, hp⟩ | hp | ⟨result, hp | hp⟩ := h.phase_cases
  · exact absurd hp (hn todo)
  · simp only [Session.step, hp] at hs
    have hserved := stepServing_cases hs
    refine ⟨fun todo ht => ?_, hserved.phases⟩
    cases hserved <;> simp [hp] at ht
  · simp only [Session.step, hp] at hs
    split at hs <;> cases hs
    exact ⟨by simp, rfl⟩
  · simp [Session.step, hp] at hs

theorem exists_crashed_iff (hp : t.claims.map (·.phase) = s.claims.map (·.phase)) :
    (∃ claim ∈ t.claims, claim.phase = .crashed) ↔ ∃ claim ∈ s.claims, claim.phase = .crashed := by
  rw [← List.mem_map, ← List.mem_map, hp]

/-- Once all handlers have returned, the session comes to its result with nobody's help. -/
theorem Answers.leads (h : s.Answers env failed rebalanced) (hf : s.Failing failed)
    (hn : ∀ todo, s.phase ≠ .opening todo) (ho : ∀ claim ∈ s.claims, claim.isOver = true) :
    ∃ result, s.Leads env result ∧ s.Justified failed rebalanced result := by
  -- By induction on what is left to do. No handler is waited for, so the session takes its next step by itself.
  induction hr : s.remaining using WellFoundedLT.induction generalizing env s with
  | ind left ih =>
    obtain ⟨result, hp⟩ | ⟨after, t, hs⟩ | ⟨_, _, claim, hc, hover⟩ := h.proceeds hf
    · exact ⟨result, .ended hp, h.result (.inr hp)⟩
    · obtain ⟨hnext, hphases⟩ := h.phases_kept hn hs
      have hlt : t.remaining < left := hr ▸ h.remaining_lt (.own hs)
      have hfailing : t.Failing failed := hf.imp_right (exists_crashed_iff hphases).mpr
      have hovers : ∀ claim ∈ t.claims, claim.isOver = true := by
        intro claim hc
        obtain ⟨old, hold, hp⟩ := List.mem_map.mp (hphases ▸ List.mem_map_of_mem hc)
        rw [Claim.isOver, ← hp]
        exact ho old hold
      obtain ⟨result, hleads, hj⟩ := ih _ hlt (h.stepped (.own hs)) hfailing hnext hovers rfl
      refine ⟨result, .step hs hleads, ?_⟩
      cases result with
      | ok => exact hj
      | error failure =>
        obtain hunopened | ⟨hr, hm⟩ := hj
        · exact .inl hunopened
        · exact .inr ⟨hr, hm.imp_right (And.imp_left (exists_crashed_iff hphases).mp)⟩
    · simp [ho claim hc] at hover

end Session

/-- A session of which some claim has failed returns, and with the failure of one of its claims, if nothing from outside
ends it before it knows so. If a rebalance comes first, then its failures are lost: it returns as a clean one and ends
the streak of failing sessions. -/
theorem failing_claim_told_unless_rebalanced {env : Environment} {s : Session α} {failed : List Failure}
    {rebalanced : Bool} (h : Session.Course env s failed rebalanced) (hf : s.Failing failed) :
    s.TellsFailure env failed rebalanced := by
  have ha : s.Answers env failed rebalanced := h.answers
  -- The loop looks at the result of a session only when the session has ended, so its step is that of the streak.
  refine ⟨fun result hp => ha.result (.inr hp), fun _ _ => ha.remaining_lt, fun _ _ _ => Session.remaining_handled,
    fun _ _ _ _ _ => h.claimed, fun _ _ _ _ _ => h.collected, ha.proceeds hf, ha.leads hf,
    fun run stop after next result hl hp hs => ?_⟩
  cases stop with
  | true => simp [GroupRun.stepLoop, hl] at hs
  | false =>
    simp only [GroupRun.stepLoop, hl, hp] at hs
    obtain rfl : (run.afterSession env result).2 = next := congrArg Prod.snd (Option.some.inj hs)
    cases result with
    | ok => exact ⟨fun hn => absurd rfl hn, fun _ => ⟨rfl, rfl⟩⟩
    | error failure => exact ⟨fun _ => GroupRun.afterSession_error env run failure, fun he => by simp at he⟩

def claimedEnvironment : Environment where
  broker := ({} : Broker).createTopic "orders" 1
  tokens := { fresh := 1 }
  groupClients := [⟨.broker "billing" .earliest, [], false⟩]

def failedClaim : Claim Nat where
  source := .log ⟨("orders", 0), 0, 0, 0⟩
  ackGroup := some "billing"
  phase := .finished (.error (.broker "boom"))

/-- The failure of a claim is returned, or lost to a rebalance that the session sees first. -/
theorem failed_claim_returned :
    (∃ env s, Session.Course env s [.broker "boom"] false ∧ s.claims = [failedClaim] ∧
      s.phase = .ended (.error (.broker "boom")) ∧ s.TellsFailure env [.broker "boom"] false) ∧
    ∃ env s, Session.Course env s [.broker "boom"] true ∧ s.claims = [failedClaim] ∧
      s.phase = .ended (.ok ()) ∧ s.TellsFailure env [.broker "boom"] true := by
  have hjoined : claimedEnvironment.Joined 0 "billing" .earliest := ⟨_, rfl, rfl⟩
  have hbegun : Session.Course (α := Nat) _ _ [] false :=
    .begun hjoined (show Session.begin claimedEnvironment 0 ["orders"] [0] = _ from rfl) ⟨rfl, rfl⟩
  have hserving : Session.Course _ _ [] false := ((hbegun.stepped (.own rfl)).stepped (.own rfl)).stepped (.own rfl)
  have hfailed : Session.Course _ _ [.broker "boom"] false :=
    hserving.handled (i := 0) rfl (show Claim.Handled _ failedClaim from ⟨rfl, rfl⟩)
  have hended : Session.Course _ _ [.broker "boom"] false := (hfailed.stepped (.own rfl)).stepped (.own rfl)
  have hlost : Session.Course _ _ [.broker "boom"] true :=
    ((hfailed.rebalanced (.inr rfl)).stepped (.own rfl)).stepped (.own rfl)
  exact ⟨⟨_, _, hended, rfl, rfl, failing_claim_told_unless_rebalanced hended (.inl (by simp))⟩,
    _, _, hlost, rfl, rfl, failing_claim_told_unless_rebalanced hlost (.inl (by simp))⟩

def failingHandlers : Chronicle Nat :=
  let (env, run) := CollectRun.start claimedEnvironment { failure := some "boom" } 0 ["orders"] [0]
  { world := { env := env, collects := [run] } }

def rebalancedActs : List (Act Nat) :=
  let session : Act Nat := .move ⟨.collect 0, false⟩
  [session, session, session, .outside .rebalance, session, .move ⟨.collectClaim 0 0, true⟩, session]

/-- The failure of a claim is lost to a rebalance: the session counts as a clean one. -/
theorem rebalance_hides_failure : ∃ c run s, Chronicle.run failingHandlers rebalancedActs = some c ∧
    c.world.collects[0]? = some run ∧ run.session = some s ∧ s.phase = .ended (.ok ()) ∧
    (∃ claim ∈ s.claims, claim.result? = some (.error (.broker "boom"))) ∧
    c.world.env.cancelled [0] = false ∧ c.world.env.groupClosed s.client = false ∧
    ∀ loop : GroupRun Nat, loop.loop = .serving s →
      loop.stepLoop c.world.env false = some (c.world.env, { loop with loop := .top, streak := {} }) := by
  have hstate : (Chronicle.run failingHandlers rebalancedActs).map (fun c =>
      (c.world.collects.map (·.session), c.world.env.cancelled [0], c.world.env.groupClosed 0)) =
      some ([some ⟨0, "billing", .earliest, [1, 0], 0, .ended (.ok ()), [failedClaim]⟩], false, false) := by rfl
  obtain ⟨c, hc, he⟩ := Option.map_eq_some_iff.mp hstate
  simp only [Prod.mk.injEq] at he
  obtain ⟨hruns, hcancelled, hclosed⟩ := he
  obtain ⟨run, hrun, hsession⟩ := List.map_eq_singleton_iff.mp hruns
  refine ⟨c, run, _, hc, by rw [hrun]; rfl, hsession, rfl, ⟨failedClaim, by simp, rfl⟩, hcancelled, hclosed, ?_⟩
  intro loop hl
  simp [GroupRun.stepLoop, hl, GroupRun.afterSession]

end TopicConsumer
