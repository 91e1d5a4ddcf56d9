import TopicConsumer.Proofs.Delivery
import TopicConsumer.Proofs.WorldLoops

namespace TopicConsumer

/-- What becomes of a client in the end. -/
inductive ClosingEvent where
  /-- The close of the client itself was run, and gave this. -/
  | performed (result : Except Failure Unit)
  | returned (result : Except Failure Unit)
  | reported (failure : Failure)

@[simp]
def performedOf : List ClosingEvent → List (Except Failure Unit)
  | [] => []
  | .performed result :: rest => result :: performedOf rest
  | .returned _ :: rest => performedOf rest
  | .reported _ :: rest => performedOf rest

@[simp]
def fatalsOf : List ClosingEvent → List Failure
  | [] => []
  | .performed _ :: rest => fatalsOf rest
  | .returned _ :: rest => fatalsOf rest
  | .reported failure :: rest => failure :: fatalsOf rest

@[simp]
theorem performedOf_append (events more : List ClosingEvent) :
    performedOf (events ++ more) = performedOf events ++ performedOf more := by
  induction events using performedOf.induct <;> simp [*]

@[simp]
theorem fatalsOf_append (events more : List ClosingEvent) :
    fatalsOf (events ++ more) = fatalsOf events ++ fatalsOf more := by
  induction events using fatalsOf.induct <;> simp [*]

/-- The close of the client is run at most once, and every call of close returns what it gave. A fatal
failure is queued at most once, and only when the client is closed. -/
structure ClosedOnce (events : List ClosingEvent) : Prop where
  once : (performedOf events).length ≤ 1
  returns : ∀ past result, past ++ [.returned result] <+: events →
    ∃ outcome, performedOf past = [outcome] ∧ result = outcome.mapError Failure.close
  fatals : (fatalsOf events).length ≤ 1
  closed : ∀ past failure, past ++ [.reported failure] <+: events → performedOf past ≠ []

namespace ClosedOnce

variable {events : List ClosingEvent}

theorem performed (h : ClosedOnce events) (hn : performedOf events = []) (result : Except Failure Unit) :
    ClosedOnce (events ++ [.performed result]) where
  once := by simp [hn]
  returns past answer hp := by
    rcases List.prefix_concat_iff.mp hp with he | hp
    · simp at he
    · exact h.returns past answer hp
  fatals := by simpa using h.fatals
  closed past failure hp := by
    rcases List.prefix_concat_iff.mp hp with he | hp
    · simp at he
    · exact h.closed past failure hp

theorem returned (h : ClosedOnce events) {outcome : Except Failure Unit}
    (ho : performedOf events = [outcome]) :
    ClosedOnce (events ++ [.returned (outcome.mapError .close)]) where
  once := by simp [ho]
  returns past answer hp := by
    rcases List.prefix_concat_iff.mp hp with he | hp
    · obtain ⟨rfl, hx⟩ := List.append_inj' he rfl
      cases hx
      exact ⟨outcome, ho, rfl⟩
    · exact h.returns past answer hp
  fatals := by simpa using h.fatals
  closed past failure hp := by
    rcases List.prefix_concat_iff.mp hp with he | hp
    · simp at he
    · exact h.closed past failure hp

theorem reported (h : ClosedOnce events) (hn : performedOf events ≠ []) (hf : fatalsOf events = [])
    (failure : Failure) : ClosedOnce (events ++ [.reported failure]) where
  once := by simpa using h.once
  returns past answer hp := by
    rcases List.prefix_concat_iff.mp hp with he | hp
    · simp at he
    · exact h.returns past answer hp
  fatals := by simp [hf]
  closed past fatal hp := by
    rcases List.prefix_concat_iff.mp hp with he | hp
    · obtain ⟨rfl, _⟩ := List.append_inj' he rfl
      exact hn
    · exact h.closed past fatal hp

end ClosedOnce

namespace CloseCell

/-- What the close of the client gave, if it was run. -/
def outcome : CloseCell → List (Except Failure Unit)
  | .done result => [result]
  | _ => []

end CloseCell

namespace GroupRun

variable {α : Type}

def watchCloses (env : Environment) (run : GroupRun α) (stop : Bool) : List ClosingEvent :=
  match run.watch, stop with
  | .performing _, false => [.performed (run.performClose env).1]
  | .forwarding failure, false =>
    match run.errors.offer failure with
    | .queued _ => [.reported failure]
    | _ => []
  | _, _ => []

def closerCloses (env : Environment) (run next : GroupRun α) : List ClosingEvent :=
  let performed := match run.closer with
    | .performing => [.performed (run.performClose env).1]
    | _ => []
  let returned := match next.closer with
    | .returned result => [.returned result]
    | _ => []
  performed ++ returned

def NotClosing (run : GroupRun α) : Prop := run.closer ≠ .waiting ∧ run.closer ≠ .performing

/-- A group consumer and what the watchdog and the calls of close have done, one call at a time. The session
loop, the application and all that is outside may do anything meanwhile. -/
inductive Closing : Environment → GroupRun α → List ClosingEvent → Prop where
  | start {env run} : run.watch = .watching → run.closed = .idle → run.closer = .idle → Closing env run []
  | watched {env run events stop after next} : Closing env run events →
      run.stepWatch env stop = some (after, next) → Closing after next (events ++ run.watchCloses env stop)
  | called {env run events} : Closing env run events → run.NotClosing →
      Closing (run.beginClose env).1 (run.beginClose env).2 events
  | answered {env run events after next} : Closing env run events →
      run.stepCloser env = some (after, next) → Closing after next (events ++ run.closerCloses env next)
  | meanwhile {env run events after next} : Closing env run events → next.watch = run.watch →
      next.closed = run.closed → next.closer = run.closer → Closing after next events

inductive WatchStep (run : GroupRun α) : GroupRun α → List ClosingEvent → Prop where
  | woken {watch} : run.watch = .watching → (watch = .done ∨ ∃ fatal, watch = .closing fatal) →
      WatchStep run { run with watch := watch } []
  | began {fatal} : run.watch = .closing fatal → run.closed = .idle →
      WatchStep run { run with closed := .running, watch := .performing fatal } []
  | learned {fatal result watch} : run.watch = .closing fatal → run.closed = .done result →
      (watch = .done ∨ ∃ failure, watch = .forwarding failure) → WatchStep run { run with watch := watch } []
  | performed {fatal result watch} : run.watch = .performing fatal →
      (watch = .done ∨ ∃ failure, watch = .forwarding failure) →
      WatchStep run { run with closed := .done result, watch := watch } [.performed result]
  | unreported {failure} : run.watch = .forwarding failure → WatchStep run { run with watch := .done } []
  | reported {failure errors} : run.watch = .forwarding failure →
      WatchStep run { run with errors := errors, watch := .done } [.reported failure]

variable {env after : Environment} {run next : GroupRun α} {events : List ClosingEvent}

theorem stepWatch_cases {stop : Bool} (h : run.stepWatch env stop = some (after, next)) :
    WatchStep run next (run.watchCloses env stop) := by
  cases stepWatch_move h with
  | cancelled hw => simpa only [watchCloses, hw] using WatchStep.woken hw (.inr ⟨_, rfl⟩)
  | ended hw =>
    simp only [watchCloses, hw]
    refine .woken hw ?_
    split
    next => exact .inr ⟨_, rfl⟩
    next => exact .inl rfl
  | failed hw => simpa only [watchCloses, hw] using WatchStep.woken hw (.inr ⟨_, rfl⟩)
  | began hw hc => simpa only [watchCloses, hw] using WatchStep.began hw hc
  | @learned fatal result hw hc =>
    obtain ⟨watch, hrun, hwatch⟩ := afterClose_run env run fatal result
    simpa only [watchCloses, hw, hrun] using WatchStep.learned hw hc hwatch
  | @performed fatal result later hw hc =>
    obtain ⟨watch, hrun, hwatch⟩ := afterClose_run later { run with closed := .done result } fatal result
    have hresult : (run.performClose env).1 = result := congrArg Prod.fst hc
    have hcloses : run.watchCloses env false = [.performed result] := by simp only [watchCloses, hw, hresult]
    rw [hcloses, hrun]
    exact .performed hw hwatch
  | quit hw => simpa only [watchCloses, hw] using WatchStep.unreported hw
  | unheard hw ho => simpa only [watchCloses, hw, ho] using WatchStep.unreported hw
  | reported hw ho => simpa only [watchCloses, hw, ho] using WatchStep.reported hw

inductive CloserStep (run : GroupRun α) : GroupRun α → List ClosingEvent → Prop where
  | began : run.closer = .waiting → run.closed = .idle →
      CloserStep run { run with closed := .running, closer := .performing } []
  | learned {result} : run.closer = .waiting → run.closed = .done result →
      CloserStep run { run with closer := .returned (result.mapError .close) }
        [.returned (result.mapError .close)]
  | performed {result} : run.closer = .performing →
      CloserStep run { run with closed := .done result, closer := .returned (result.mapError .close) }
        [.performed result, .returned (result.mapError .close)]

theorem stepCloser_cases (h : run.stepCloser env = some (after, next)) :
    CloserStep run next (run.closerCloses env next) := by
  cases stepCloser_move h with
  | began hp hc =>
    simp only [closerCloses, hp]
    exact .began hp hc
  | learned hp hc =>
    simp only [closerCloses, hp]
    exact .learned hp hc
  | @performed result later hp hc =>
    have hresult : (run.performClose env).1 = result := congrArg Prod.fst hc
    simp only [closerCloses, hp, hresult]
    exact .performed hp

/-- What the watchdog, the cell and the call of close tell of what was done. -/
structure Settles (run : GroupRun α) (events : List ClosingEvent) : Prop extends ClosedOnce events where
  outcome : performedOf events = run.closed.outcome
  watches : ∀ fatal, run.watch = .performing fatal → run.closed = .running ∧ run.closer ≠ .performing
  closes : run.closer = .performing → run.closed = .running
  busy : run.closed = .running → (∃ fatal, run.watch = .performing fatal) ∨ run.closer = .performing
  forwards : ∀ failure, run.watch = .forwarding failure → ∃ result, run.closed = .done result
  told : fatalsOf events ≠ [] → run.watch = .done

/-- The cell is as it was, and the watchdog neither performs the close now nor did so before. -/
theorem Settles.turned (h : run.Settles events) {watch : WatchPhase} {errors : Queue Failure}
    (hb : ∀ fatal, run.watch ≠ .performing fatal) (hp : ∀ fatal, watch ≠ .performing fatal)
    (hf : ∀ failure, watch = .forwarding failure → ∃ result, run.closed = .done result)
    (ht : fatalsOf events ≠ [] → watch = .done) :
    Settles { run with watch := watch, errors := errors } events where
  toClosedOnce := h.toClosedOnce
  outcome := h.outcome
  watches fatal hw := absurd hw (hp fatal)
  closes := h.closes
  busy hc := .inr ((h.busy hc).resolve_left fun ⟨fatal, hw⟩ => hb fatal hw)
  forwards := hf
  told := ht

theorem Settles.watched (h : run.Settles events) {more : List ClosingEvent} (hs : run.WatchStep next more) :
    next.Settles (events ++ more) := by
  have hnone (hw : run.watch ≠ .done) : fatalsOf events = [] := not_imp_comm.mp h.told hw
  cases hs with
  | woken hw hl =>
    have hn : fatalsOf events = [] := hnone (by simp [hw])
    rw [List.append_nil]
    refine h.turned (by simp [hw]) ?_ ?_ (absurd hn)
    all_goals rintro _ rfl; simp at hl
  | began hw hc =>
    have hn : fatalsOf events = [] := hnone (by simp [hw])
    rw [List.append_nil]
    refine ⟨h.toClosedOnce, by simp [h.outcome, hc, CloseCell.outcome], fun _ _ => ⟨rfl, fun hp => ?_⟩,
      fun _ => rfl, fun _ => .inl ⟨_, rfl⟩, fun _ hf => by simp at hf, absurd hn⟩
    simp [h.closes hp] at hc
  | learned hw hc hl =>
    have hn : fatalsOf events = [] := hnone (by simp [hw])
    rw [List.append_nil]
    refine h.turned (by simp [hw]) ?_ (fun _ _ => ⟨_, hc⟩) (absurd hn)
    rintro _ rfl
    simp at hl
  | @performed fatal result watch hw hl =>
    have hn : fatalsOf events = [] := hnone (by simp [hw])
    obtain ⟨hc, hp⟩ := h.watches _ hw
    have ho : performedOf events = [] := by simp [h.outcome, hc, CloseCell.outcome]
    refine ⟨h.toClosedOnce.performed ho result, by simp [ho, CloseCell.outcome], ?_,
      fun hp' => absurd hp' hp, fun hd => by simp at hd, fun _ _ => ⟨result, rfl⟩, ?_⟩
    · rintro _ rfl
      simp at hl
    · simp [hn]
  | unreported hw =>
    rw [List.append_nil]
    exact h.turned (by simp [hw]) (by simp) (by simp) fun _ => rfl
  | @reported failure errors hw =>
    have hn : fatalsOf events = [] := hnone (by simp [hw])
    obtain ⟨result, hc⟩ := h.forwards _ hw
    have ho : performedOf events = [result] := by simp [h.outcome, hc, CloseCell.outcome]
    refine ⟨h.toClosedOnce.reported (by simp [ho]) hn failure, by simp [h.outcome], by simp, h.closes, ?_,
      by simp, fun _ => rfl⟩
    simp [hc]

theorem Settles.answered (h : run.Settles events) {more : List ClosingEvent} (hs : run.CloserStep next more) :
    next.Settles (events ++ more) := by
  cases hs with
  | began hp hc =>
    have hb : ∀ fatal, run.watch ≠ .performing fatal := fun fatal hw => by simp [(h.watches fatal hw).1] at hc
    have ho : performedOf events = [] := by simp [h.outcome, hc, CloseCell.outcome]
    rw [List.append_nil]
    refine ⟨h.toClosedOnce, by simp [ho, CloseCell.outcome], fun fatal hw => absurd hw (hb fatal),
      fun _ => rfl, fun _ => .inr rfl, fun failure hf => ?_, h.told⟩
    obtain ⟨_, hd⟩ := h.forwards failure hf
    simp [hd] at hc
  | @learned result hp hc =>
    have ho : performedOf events = [result] := by simp [h.outcome, hc, CloseCell.outcome]
    have hb : ∀ fatal, run.watch ≠ .performing fatal := fun fatal hw => by simp [(h.watches fatal hw).1] at hc
    refine ⟨h.toClosedOnce.returned ho, by simp [h.outcome], fun fatal hw => absurd hw (hb fatal), by simp,
      by simp [hc], h.forwards, by simpa using h.told⟩
  | @performed result hp =>
    have hc : run.closed = .running := h.closes hp
    have ho : performedOf events = [] := by simp [h.outcome, hc, CloseCell.outcome]
    have hb : ∀ fatal, run.watch ≠ .performing fatal := fun fatal hw => (h.watches fatal hw).2 hp
    have hone : performedOf (events ++ [.performed result]) = [result] := by simp [ho]
    rw [List.append_cons]
    refine ⟨(h.toClosedOnce.performed ho result).returned hone, by simp [ho, CloseCell.outcome],
      fun fatal hw => absurd hw (hb fatal), by simp, by simp, fun _ _ => ⟨result, rfl⟩, by simpa using h.told⟩

theorem Closing.settles (h : Closing env run events) : run.Settles events := by
  induction h with
  | start hw hc hp =>
    exact ⟨⟨by simp, by simp, by simp, by simp⟩, by simp [hc, CloseCell.outcome], by simp [hw], by simp [hp],
      by simp [hc], by simp [hw], by simp⟩
  | watched _ hs ih => exact ih.watched (stepWatch_cases hs)
  | answered _ hs ih => exact ih.answered (stepCloser_cases hs)
  | @called env run events _ hn ih =>
    exact ⟨ih.toClosedOnce, ih.outcome, fun fatal hw => ⟨(ih.watches fatal hw).1, by simp [beginClose]⟩,
      by simp [beginClose], fun hc => .inl ((ih.busy hc).resolve_right hn.2), ih.forwards, ih.told⟩
  | meanwhile _ hw hc hp ih =>
    exact ⟨ih.toClosedOnce, hc ▸ ih.outcome, hw ▸ hc ▸ hp ▸ ih.watches, hc ▸ hp ▸ ih.closes,
      hw ▸ hc ▸ hp ▸ ih.busy, hw ▸ hc ▸ ih.forwards, hw ▸ ih.told⟩

def SameClosing (run next : GroupRun α) : Prop :=
  next.watch = run.watch ∧ next.closed = run.closed ∧ next.closer = run.closer

theorem SameClosing.refl (run : GroupRun α) : run.SameClosing run := ⟨rfl, rfl, rfl⟩

theorem Closing.same (h : Closing env run events) (hs : run.SameClosing next) : Closing after next events :=
  h.meanwhile hs.1 hs.2.1 hs.2.2

theorem afterSession_closing (env : Environment) (run : GroupRun α) (result : Except Failure Unit) :
    run.SameClosing (run.afterSession env result).2 := by
  unfold afterSession
  dsimp only
  split
  next => exact .refl run
  next => exact .refl run
  next => split <;> exact .refl run

theorem LoopStep.closing (h : LoopStep env run after next) : run.SameClosing next := by
  cases h with
  | refused | ended => exact afterSession_closing _ run _
  | _ => exact .refl run

theorem stepClaim_closing {j : Nat} {stop : Bool} (h : run.stepClaim env j stop = some (after, next)) :
    run.SameClosing next := by
  obtain ⟨_, _, handled, _, _, _, hh, rfl⟩ := stepClaim_cases h
  cases hh <;> exact .refl run

end GroupRun

namespace Consumer

variable {α : Type}

theorem start_closing (w : World α) (blueprint : Blueprint α) (token : Token) :
    let started := (start w { blueprint := blueprint, connector := .broker } token).2.1
    started.groups = w.groups ∨ ∃ run, started.groups = w.groups ++ [run] ∧ run.watch = .watching ∧
      run.closed = .idle ∧ run.closer = .idle := by
  cases blueprint with
  | grouped group config =>
    simp only [start, Option.isSome_none, Bool.false_eq_true, if_false]
    split
    next => exact .inl rfl
    next => exact .inr ⟨_, rfl, rfl, rfl, rfl⟩
  | direct config =>
    obtain ⟨env, directs, hw, _⟩ := start_direct w config token
    rw [hw]
    exact .inl rfl

end Consumer

namespace Chronicle

variable {α : Type} {c d : Chronicle α}

def closes (c d : Chronicle α) (i : Nat) (a : Act α) : List ClosingEvent :=
  match c.world.groups[i]?, d.world.groups[i]?, a with
  | some run, some _, .move ⟨.watch j, stop⟩ => if j = i then run.watchCloses c.world.env stop else []
  | some run, some next, .move ⟨.closer j, _⟩ => if j = i then run.closerCloses c.world.env next else []
  | _, _, _ => []

/-- What some acts do about the closing of the client of a run. -/
def closings (c : Chronicle α) (i : Nat) : List (Act α) → List ClosingEvent
  | [] => []
  | a :: rest =>
    match c.act? a with
    | none => []
    | some d => c.closes d i a ++ d.closings i rest

/-- Closing goes on for a run, if an act leaves another state of it. -/
structure Closes (c d : Chronicle α) (i : Nat) (a : Act α) : Prop where
  begun : ∀ next, c.world.groups[i]? = none → d.world.groups[i]? = some next →
    next.watch = .watching ∧ next.closed = .idle ∧ next.closer = .idle
  went : ∀ run, c.world.groups[i]? = some run → ∃ next, d.world.groups[i]? = some next ∧
    ∀ events, run.Closing c.world.env events → next.Closing d.world.env (events ++ c.closes d i a)

theorem Closes.of_groups {i : Nat} {a : Act α} (hg : d.world.groups = c.world.groups)
    (ha : c.closes d i a = []) : Closes c d i a where
  begun next hn hd := by simp [hg, hn] at hd
  went run hr := by
    refine ⟨run, hg ▸ hr, fun events he => ?_⟩
    rw [ha, List.append_nil]
    exact he.same (.refl run)

theorem Closes.of_set {i j : Nat} {a : Act α} {env : Environment} {run next : GroupRun α}
    (hr : c.world.groups[j]? = some run) (hw : d.world = c.world.setGroup j (env, next))
    (hs : ∀ events, run.Closing c.world.env events → next.Closing env (events ++ c.closes d j a))
    (ho : i ≠ j → c.closes d i a = []) : Closes c d i a := by
  have hd : d.world.groups = c.world.groups.set j next := by rw [hw, World.setGroup]
  have henv : d.world.env = env := by rw [hw, World.setGroup]
  by_cases hi : i = j
  · subst hi
    have hb : i < c.world.groups.length := (List.getElem?_eq_some_iff.mp hr).1
    refine ⟨fun _ hn _ => by simp [hr] at hn, fun run' hr' => ⟨next, by simp [hd, hb], ?_⟩⟩
    cases Option.some.inj (hr.symm.trans hr')
    exact henv ▸ hs
  · have hsame : d.world.groups[i]? = c.world.groups[i]? := by rw [hd, List.getElem?_set_ne (Ne.symm hi)]
    refine ⟨fun next hn hd => by simp [hsame, hn] at hd, fun run' hr' => ⟨run', hsame ▸ hr', ?_⟩⟩
    intro events he
    rw [ho hi, List.append_nil]
    exact he.same (.refl run')

theorem Closes.of_append {i : Nat} {a : Act α} {run : GroupRun α} (hg : d.world.groups = c.world.groups ++ [run])
    (hs : run.watch = .watching ∧ run.closed = .idle ∧ run.closer = .idle) (ha : c.closes d i a = []) :
    Closes c d i a := by
  refine ⟨fun next hn hd => ?_, fun run' hr' => ⟨run', ?_, fun events he => ?_⟩⟩
  · rw [hg, List.getElem?_append_right (List.getElem?_eq_none_iff.mp hn), List.getElem?_singleton] at hd
    split at hd <;> cases hd
    exact hs
  · rw [hg, List.getElem?_append_left (List.getElem?_eq_some_iff.mp hr').1, hr']
  · rw [ha, List.append_nil]
    exact he.same (.refl run')

theorem Closes.of_same {i j : Nat} {a : Act α} {env : Environment} {run next : GroupRun α}
    (hr : c.world.groups[j]? = some run) (hw : d.world = c.world.setGroup j (env, next))
    (hs : run.SameClosing next) (ha : ∀ i, c.closes d i a = []) : Closes c d i a := by
  refine .of_set hr hw (fun events he => ?_) fun _ => ha i
  rw [ha, List.append_nil]
  exact he.same hs

theorem closes_of_not_move {i : Nat} {a : Act α} (ha : ∀ move, a ≠ .move move) : c.closes d i a = [] := by
  unfold closes
  split
  next => exact absurd rfl (ha _)
  next => exact absurd rfl (ha _)
  next => rfl

theorem closes_of_actor {i : Nat} {move : Move} (hw : ∀ j, move.actor ≠ .watch j)
    (hc : ∀ j, move.actor ≠ .closer j) : c.closes d i (.move move) = [] := by
  unfold closes
  split
  next he => cases he; exact absurd rfl (hw _)
  next he => cases he; exact absurd rfl (hc _)
  next => rfl

theorem closes_of_other {i j : Nat} {move : Move} (hm : move.actor = .watch j ∨ move.actor = .closer j)
    (hi : i ≠ j) : c.closes d i (.move move) = [] := by
  unfold closes
  split
  next k _ _ _ he =>
    cases he
    rcases hm with hm | hm <;> cases hm
    exact if_neg hi.symm
  next k _ _ _ he =>
    cases he
    rcases hm with hm | hm <;> cases hm
    exact if_neg hi.symm
  next => rfl

theorem closes_watch {i : Nat} {stop : Bool} {run next : GroupRun α} (hr : c.world.groups[i]? = some run)
    (hn : d.world.groups[i]? = some next) :
    c.closes d i (.move ⟨.watch i, stop⟩) = run.watchCloses c.world.env stop := by
  simp [closes, hr, hn]

theorem closes_closer {i : Nat} {stop : Bool} {run next : GroupRun α} (hr : c.world.groups[i]? = some run)
    (hn : d.world.groups[i]? = some next) :
    c.closes d i (.move ⟨.closer i, stop⟩) = run.closerCloses c.world.env next := by
  simp [closes, hr, hn]

/-- The client of a run is closed in a step of its watchdog or of a call of close. -/
theorem closes_cases {a : Act α} (hc : c.world.collects = []) (h : c.act? a = some d) (i : Nat) :
    c.closes d i a = [] ∨ ∃ run env next, c.world.groups[i]? = some run ∧ d.world = c.world.setGroup i (env, next) ∧
      ((∃ stop, run.stepWatch c.world.env stop = some (env, next) ∧
          c.closes d i a = run.watchCloses c.world.env stop) ∨
        run.stepCloser c.world.env = some (env, next) ∧ c.closes d i a = run.closerCloses c.world.env next) := by
  cases acted_of_act? hc h with
  | moved hm =>
    cases hm with
    | @watch j stop run env next hr hs =>
      by_cases hi : i = j
      · subst hi
        have hn := c.world.setGroup_getElem? env next hr
        exact .inr ⟨run, env, next, hr, rfl, .inl ⟨stop, hs, closes_watch hr hn⟩⟩
      · exact .inl (closes_of_other (.inl rfl) hi)
    | @closer j run env next hr hs =>
      by_cases hi : i = j
      · subst hi
        have hn := c.world.setGroup_getElem? env next hr
        exact .inr ⟨run, env, next, hr, rfl, .inr ⟨hs, closes_closer hr hn⟩⟩
      · exact .inl (closes_of_other (.inr rfl) hi)
    | loop | claim | pump | task => exact .inl (closes_of_actor (by simp) (by simp))
  | _ => exact .inl (closes_of_not_move (by simp))

theorem move_closes {move : Move} {w : World α} (h : c.world.Moved move w) (i : Nat) :
    Closes c (c.observe w) i (.move move) := by
  cases h with
  | @watch j stop run env next hr hs =>
    have hn := c.world.setGroup_getElem? env next hr
    refine .of_set hr rfl (fun events he => ?_) fun hi => closes_of_other (.inl rfl) hi
    rw [closes_watch hr hn]
    exact he.watched hs
  | @closer j run env next hr hs =>
    have hn := c.world.setGroup_getElem? env next hr
    refine .of_set hr rfl (fun events he => ?_) fun hi => closes_of_other (.inr rfl) hi
    rw [closes_closer hr hn]
    exact he.answered hs
  | loop hr hs =>
    exact .of_same hr rfl (GroupRun.stepLoop_cases hs).closing fun _ => closes_of_actor (by simp) (by simp)
  | claim hr hs =>
    exact .of_same hr rfl (GroupRun.stepClaim_closing hs) fun _ => closes_of_actor (by simp) (by simp)
  | pump | task => exact .of_groups rfl (closes_of_actor (by simp) (by simp))

theorem act?_closes {a : Act α} (hc : c.world.collects = []) (h : c.act? a = some d) (i : Nat) :
    Closes c d i a := by
  cases acted_of_act? hc h with
  | moved hm => exact move_closes hm i
  | started hd =>
    have hw := world_started hd
    obtain hg | ⟨run, hg, hfresh⟩ := Consumer.start_closing c.world _ _
    · exact .of_groups (hw ▸ hg) (closes_of_not_move (by simp))
    · exact .of_append (hw ▸ hg) hfresh (closes_of_not_move (by simp))
  | called hr hw hp =>
    refine .of_set hr rfl (fun events he => ?_) fun _ => closes_of_not_move (by simp)
    rw [closes_of_not_move (by simp), List.append_nil]
    exact he.called ⟨hw, hp⟩
  | received hr | tookError hr | droppedMessages hr | droppedErrors hr =>
    exact .of_same hr rfl (.refl _) fun _ => closes_of_not_move (by simp)
  | changed | unasked | acknowledged | closedDirect | usedDirect =>
    exact .of_groups rfl (closes_of_not_move (by simp))

theorem closing_of_run {acts : List (Act α)} {i : Nat} {events : List ClosingEvent} {run : GroupRun α}
    (hc : c.world.collects = []) (hn : c.world.groups[i]? = none → events = [])
    (hs : ∀ run, c.world.groups[i]? = some run → run.Closing c.world.env events)
    (h : c.run acts = some d) (hr : d.world.groups[i]? = some run) :
    run.Closing d.world.env (events ++ c.closings i acts) := by
  induction acts generalizing c events with
  | nil =>
    cases Option.some.inj h
    simpa [closings] using hs run hr
  | cons a rest ih =>
    obtain ⟨next, ha, hrest⟩ := Option.bind_eq_some_iff.mp h
    obtain ⟨topic, ht⟩ := exists_topic_kept a
    have hcollects : next.world.collects = [] := (act?_turn ha hc ht).collects.trans hc
    have hcloses : Closes c next i a := act?_closes hc ha i
    have hevents : c.closings i (a :: rest) = c.closes next i a ++ next.closings i rest := by simp [closings, ha]
    rw [hevents, ← List.append_assoc]
    refine ih hcollects (fun hnext => ?_) (fun after hafter => ?_) hrest
    · cases hg : c.world.groups[i]? with
      | none => simp [hn hg, closes, hg]
      | some run =>
        obtain ⟨_, hsome, _⟩ := hcloses.went run hg
        simp [hsome] at hnext
    · cases hg : c.world.groups[i]? with
      | none =>
        obtain ⟨hw, hcell, hp⟩ := hcloses.begun after hg hafter
        simpa [hn hg, closes, hg] using GroupRun.Closing.start hw hcell hp
      | some run =>
        obtain ⟨_, hsome, hgoes⟩ := hcloses.went run hg
        cases Option.some.inj (hsome.symm.trans hafter)
        exact hgoes events (hs run hg)

end Chronicle

/-- Whatever happens in a world of consumers, and in whatever order, the client of a group consumer is closed
once, every call of close returns the result of that one close, and a fatal failure is queued once and only
after it. -/
theorem client_closed_once {α : Type} {acts : List (Act α)} {c : Chronicle α} {i : Nat} {run : GroupRun α}
    (h : Chronicle.run {} acts = some c) (hr : c.world.groups[i]? = some run) :
    ClosedOnce (Chronicle.closings {} i acts) :=
  (Chronicle.closing_of_run rfl (fun _ => rfl) (by simp) h hr).settles.toClosedOnce

/-- The client fails, and its consumer is closed before the watchdog gets to it. The close fails, which the
next call of close is told as well. -/
def failedCloseActs : List (Act Nat) :=
  let watch : Act Nat := .move ⟨.watch 0, false⟩
  let closer : Act Nat := .move ⟨.closer 0, false⟩
  [.outside (.failClose (some "leave group timed out")), .start (.grouped "billing" billing) [],
    .outside (.failGroup "billing" "broken"), watch, .close 0, closer, closer, watch, watch, .close 0, closer]

theorem failed_close_told_twice : ∃ c run, Chronicle.run {} failedCloseActs = some c ∧
    c.world.groups[0]? = some run ∧ ClosedOnce (Chronicle.closings {} 0 failedCloseActs) ∧
    Chronicle.closings {} 0 failedCloseActs =
      [.performed (.error (.broker "leave group timed out")),
        .returned (.error (.close (.broker "leave group timed out"))), .reported (.broker "broken"),
        .returned (.error (.close (.broker "leave group timed out")))] := by
  have hlength : (Chronicle.run {} failedCloseActs).map (·.world.groups.length) = some 1 := by rfl
  obtain ⟨c, hc, hgroups⟩ := Option.map_eq_some_iff.mp hlength
  obtain ⟨run, hrun⟩ := List.length_eq_one_iff.mp hgroups
  have hr : c.world.groups[0]? = some run := by rw [hrun]; rfl
  exact ⟨c, run, hc, hr, client_closed_once hc hr, by rfl⟩

end TopicConsumer
