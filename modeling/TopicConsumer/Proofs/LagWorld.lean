import TopicConsumer.Proofs.HeldRecords

namespace TopicConsumer

open Environment

variable {α : Type}

namespace World

/-- How far the tasks of a run are with the records in their hands. -/
def hands (w : World α) : Streams → List Handling
  | .group i => (w.groups[i]?.map GroupRun.handling).getD []
  | .direct i => (w.directs[i]?.map DirectRun.handling).getD []

def handling? (w : World α) : Actor → Option (Streams × Handling)
  | .claim i j => do
    let run ← w.groups[i]?
    let claim ← run.claims[j]?
    return (.group i, claim.phase.handling run.group)
  | .pump i j => do
    let run ← w.directs[i]?
    let pump ← run.pumps[j]?
    return (.direct i, pump.phase.handling)
  | .task i j => do
    let run ← w.directs[i]?
    let task ← run.tasks[j]?
    return (.direct i, task.handling)
  | _ => none

/-- What a move of a task does to the record in its hands. The mark that counts is the length of the log. -/
def noted (w v : World α) (actor : Actor) : List (LagEvent Streams) :=
  match w.handling? actor, v.handling? actor with
  | some (owner, old), some (_, new) => old.noted owner w.env.broker.markOf new
  | _, _ => []

end World

namespace Chronicle

def noted (c d : Chronicle α) : Act α → List (LagEvent Streams)
  | .move m => c.world.noted d.world m.actor
  | _ => []

/-- What happens to records while some acts happen. -/
def ledger (c : Chronicle α) : List (Act α) → List (LagEvent Streams)
  | [] => []
  | a :: rest =>
    match c.act? a with
    | none => []
    | some d => c.noted d a ++ d.ledger rest

theorem ledger_concat {c d e : Chronicle α} {acts : List (Act α)} {a : Act α} (h : c.run acts = some d)
    (ha : d.act? a = some e) : c.ledger (acts ++ [a]) = c.ledger acts ++ d.noted e a := by
  induction acts generalizing c with
  | nil =>
    cases Option.some.inj h
    simp [ledger, ha]
  | cons b rest ih =>
    obtain ⟨next, hb, hrest⟩ := Option.bind_eq_some_iff.mp h
    simp [ledger, hb, ih hrest]

end Chronicle

variable {w v : World α} {start : Gauge} {events : List (LagEvent Streams)}

theorem ClaimPhase.handling_taken {group : String} {phase : ClaimPhase α} {held : Held}
    (h : phase.handling group = .taken held) : ∃ r, phase = .taken r ∧ r.held group = held := by
  cases phase <;> simp [ClaimPhase.handling] at h ⊢
  exact h

theorem PumpPhase.handling_taken {phase : PumpPhase α} {held : Held} (h : phase.handling = .taken held) :
    ∃ r, phase = .taken r ∧ r.held "" = held := by
  cases phase <;> simp [PumpPhase.handling] at h ⊢
  exact h

namespace GroupRun

theorem serving_of_claim {run : GroupRun α} {i : Nat} {claim : Claim α} (h : run.claims[i]? = some claim) :
    ∃ s, run.loop = .serving s := by
  unfold claims at h
  split at h
  next s hl => exact ⟨s, hl⟩
  next => simp at h

theorem handling_flatMap (run : GroupRun α) (f : Handling → List Held) :
    run.handling.flatMap f = run.claims.flatMap fun claim => f (claim.phase.handling run.group) := by
  simp [handling, List.flatMap_map]

end GroupRun

namespace DirectRun

theorem handling_flatMap (run : DirectRun α) (f : Handling → List Held) :
    run.handling.flatMap f = (run.pumps.flatMap fun pump => f pump.phase.handling) ++
      run.tasks.flatMap fun task => f task.handling := by
  simp [handling, List.flatMap_map]

end DirectRun

namespace World

theorem hands_group {i : Nat} {run : GroupRun α} (hr : w.groups[i]? = some run) :
    w.hands (.group i) = run.handling := by simp [hands, hr]

theorem hands_direct {i : Nat} {run : DirectRun α} (hr : w.directs[i]? = some run) :
    w.hands (.direct i) = run.handling := by simp [hands, hr]

theorem noted_of {actor : Actor} {owner other : Streams} {old new : Handling}
    (hw : w.handling? actor = some (owner, old)) (hv : v.handling? actor = some (other, new)) :
    w.noted v actor = old.noted owner w.env.broker.markOf new := by simp [noted, hw, hv]

theorem noted_none {actor : Actor} (h : w.handling? actor = none) : w.noted v actor = [] := by simp [noted, h]

theorem handling?_claim {i j : Nat} {run : GroupRun α} {claim : Claim α} (hr : w.groups[i]? = some run)
    (hj : run.claims[j]? = some claim) :
    w.handling? (.claim i j) = some (.group i, claim.phase.handling run.group) := by simp [handling?, hr, hj]

theorem handling?_pump {i j : Nat} {run : DirectRun α} {pump : Pump α} (hr : w.directs[i]? = some run)
    (hj : run.pumps[j]? = some pump) : w.handling? (.pump i j) = some (.direct i, pump.phase.handling) := by
  simp [handling?, hr, hj]

theorem handling?_task {i j : Nat} {run : DirectRun α} {task : DecodeTask α} (hr : w.directs[i]? = some run)
    (hj : run.tasks[j]? = some task) : w.handling? (.task i j) = some (.direct i, task.handling) := by
  simp [handling?, hr, hj]

theorem setDirect_getElem? {i : Nat} {run : DirectRun α} (env : Environment) (next : DirectRun α)
    (h : w.directs[i]? = some run) : (w.setDirect i (env, next)).directs[i]? = some next :=
  getElem?_of_set rfl h

theorem hands_setGroup {i : Nat} {run next : GroupRun α} {env : Environment} (hr : w.groups[i]? = some run)
    (owner : Streams) :
    (w.setGroup i (env, next)).hands owner = if owner = .group i then next.handling else w.hands owner := by
  have hb := (List.getElem?_eq_some_iff.mp hr).1
  cases owner with
  | direct j => rfl
  | group j =>
    by_cases hj : i = j
    · subst hj
      simp [hands, setGroup, hb]
    · simp [hands, setGroup, hj, Ne.symm hj]

theorem hands_setDirect {i : Nat} {run next : DirectRun α} {env : Environment} (hr : w.directs[i]? = some run)
    (owner : Streams) :
    (w.setDirect i (env, next)).hands owner = if owner = .direct i then next.handling else w.hands owner := by
  have hb := (List.getElem?_eq_some_iff.mp hr).1
  cases owner with
  | group j => rfl
  | direct j =>
    by_cases hj : i = j
    · subst hj
      simp [hands, setDirect, hb]
    · simp [hands, setDirect, hj, Ne.symm hj]

/-- A run that was just started has nothing in hand. -/
theorem hands_started {f : Handling → List Held} (hf : f .waiting = [])
    (hg : v.groups = w.groups ∨ ∃ run, v.groups = w.groups ++ [run] ∧ run.loop = .top)
    (hd : v.directs = w.directs ∨ ∃ run, v.directs = w.directs ++ [run] ∧ run.tasks = [] ∧
      ∀ pump ∈ run.pumps, pump.reader.Open ∧ pump.phase = .asking .marking) (owner : Streams) :
    (v.hands owner).flatMap f = (w.hands owner).flatMap f := by
  cases owner with
  | group j =>
    obtain hg | ⟨run, hg, ht⟩ := hg
    · simp only [hands, hg]
    · have hnone : run.handling = [] := GroupRun.handling_idle (by simp [GroupRun.isServing, ht])
      simp only [hands, hg, List.getElem?_append]
      split
      next => rfl
      next hj =>
        rw [List.getElem?_eq_none (Nat.le_of_not_lt hj), List.getElem?_singleton]
        split <;> simp [hnone]
  | direct j =>
    obtain hd | ⟨run, hd, ht, hp⟩ := hd
    · simp only [hands, hd]
    · have hnone : run.handling.flatMap f = [] := by
        rw [DirectRun.handling_flatMap, ht, List.flatMap_nil, List.append_nil, List.flatMap_eq_nil_iff]
        intro pump hm
        rw [(hp pump hm).2]
        exact hf
      simp only [hands, hd, List.getElem?_append]
      split
      next => rfl
      next hj =>
        rw [List.getElem?_eq_none (Nat.le_of_not_lt hj), List.getElem?_singleton]
        split <;> simp [hnone]

theorem hands_useDirect (w : World α) (i : Nat) (messages : Queue (Message α)) (errors : Queue Failure)
    (owner : Streams) : ({ w with directs := w.directs.modify i fun run =>
      { run with messages := messages, errors := errors } } : World α).hands owner = w.hands owner := by
  cases owner with
  | group j => rfl
  | direct j =>
    simp only [hands, List.getElem?_modify]
    cases w.directs[j]? with
    | none => rfl
    | some run => by_cases hj : i = j <;> simp [hj, DirectRun.handling]

end World

theorem Lagging.congr {gauge later : Gauge} {hands next : Streams → List Handling}
    (h : Lagging start gauge hands events) (hg : later = gauge)
    (hu : ∀ owner, (next owner).flatMap Handling.unmeasured = (hands owner).flatMap Handling.unmeasured)
    (hd : ∀ owner, (next owner).flatMap Handling.undecoded = (hands owner).flatMap Handling.undecoded) :
    Lagging start later next events := by
  subst hg
  exact h.same (fun owner => by rw [hu]) (fun owner => by rw [hd])

theorem Lagging.quiet {gauge : Gauge} {hands : Streams → List Handling} {more : List (LagEvent Streams)}
    (h : Lagging start gauge hands events) (hm : more = []) : Lagging start gauge hands (events ++ more) := by
  rwa [hm, List.append_nil]

namespace World

theorem lagging_setGroup {i : Nat} {run next : GroupRun α} {env : Environment}
    (h : Lagging start w.env.gauge w.hands events) (hr : w.groups[i]? = some run) (hg : env.gauge = w.env.gauge)
    (hh : ∀ f : Handling → List Held, f .waiting = [] → f .past = [] →
      next.handling.flatMap f = run.handling.flatMap f) :
    Lagging start env.gauge (w.setGroup i (env, next)).hands events := by
  have hsame (f : Handling → List Held) (hw : f .waiting = []) (hp : f .past = []) (owner : Streams) :
      ((w.setGroup i (env, next)).hands owner).flatMap f = (w.hands owner).flatMap f := by
    rw [hands_setGroup hr]
    split
    next ho => rw [ho, hands_group hr, hh f hw hp]
    next => rfl
  exact h.congr hg (hsame _ rfl rfl) (hsame _ rfl rfl)

theorem lagging_claim {i j : Nat} {stop : Bool} {run next : GroupRun α} {env : Environment} {note : RunNote α}
    (h : Lagging start w.env.gauge w.hands events) (hr : w.groups[i]? = some run)
    (hd : run.Delivered run.topic w.env note) (hf : ∀ key, w.env.broker.highWaterMark key ≤ maxOffset)
    (hs : run.stepClaim w.env j stop = some (env, next)) :
    Lagging start env.gauge (w.setGroup i (env, next)).hands
      (events ++ w.noted (w.setGroup i (env, next)) (.claim i j)) := by
  obtain ⟨session, claim, handled, later, hl, hj, hstep, hnext⟩ := GroupRun.stepClaim_cases hs
  have hturn := hstep.turn fun r hp => hd.ahead hl hj hp hf
  have hclaims : run.claims = session.claims := by rw [GroupRun.claims, hl]
  have hset : next.claims = run.claims.set j later := by rw [hnext, hclaims, GroupRun.claims]
  have hgroup : next.group = run.group := by
    rw [hnext]
    exact congrArg Subscription.group hstep.subscription
  rw [← hclaims] at hj
  have hlater : next.claims[j]? = some later := getElem?_of_set hset hj
  rw [noted_of (handling?_claim hr hj) (handling?_claim (w.setGroup_getElem? env next hr) hlater), hgroup]
  refine h.turn hturn (fun owner ho => ?_) fun f => ?_
  · rw [hands_setGroup hr, if_neg ho]
  · rw [hands_setGroup hr, if_pos rfl, hands_group hr, GroupRun.handling_flatMap, GroupRun.handling_flatMap, hset,
      hgroup]
    exact flatMap_set_perm hj later fun claim => f (claim.phase.handling run.group)

theorem lagging_pump {i j : Nat} {stop : Bool} {run next : DirectRun α} {env : Environment}
    (h : Lagging start w.env.gauge w.hands events) (hr : w.directs[i]? = some run)
    (hp : ∀ pump ∈ run.pumps, pump.Sighted w.env.broker) (hf : ∀ key, w.env.broker.highWaterMark key ≤ maxOffset)
    (hs : run.stepPump w.env j stop = some (env, next)) :
    Lagging start env.gauge (w.setDirect i (env, next)).hands
      (events ++ w.noted (w.setDirect i (env, next)) (.pump i j)) := by
  obtain ⟨pump, handled, later, hj, hstep, hnext⟩ := DirectRun.stepPump_cases hs
  have hset : next.pumps = run.pumps.set j later := by rw [hnext, hstep.pumps]
  have hsame : next.tasks = handled.tasks := by rw [hnext]
  have hlater : next.pumps[j]? = some later := getElem?_of_set hset hj
  have hpumps (f : Handling → List Held) := flatMap_set_perm hj later fun pump => f pump.phase.handling
  rw [noted_of (handling?_pump hr hj) (handling?_pump (setDirect_getElem? env next hr) hlater)]
  obtain ⟨r, hold, hnew, htasks, hg⟩ | ⟨htasks, hturn⟩ :=
      hstep.turn fun r hr => (hp pump (List.mem_of_getElem? hj)).ahead hr hf
  · -- The record passes from the pump to the new task, and nothing is noted of it.
    have hkept (f : Handling → List Held) (hw : f .waiting = []) (owner : Streams) :
        (((w.setDirect i (env, next)).hands owner).flatMap f).Perm ((w.hands owner).flatMap f) := by
      rw [hands_setDirect hr]
      split
      next ho =>
        have hone := hpumps f
        rw [hold, hnew, hw, List.append_nil] at hone
        rw [ho, hands_direct hr, DirectRun.handling_flatMap, DirectRun.handling_flatMap, hset, hsame, htasks]
        refine List.perm_iff_count.mpr fun held => ?_
        have hcount := hone.count_eq held
        simp only [List.flatMap_append, List.flatMap_singleton, DecodeTask.handling, List.count_append] at hcount ⊢
        omega
      next => exact .refl _
    have hnone : pump.phase.handling.noted (Streams.direct i) w.env.broker.markOf later.phase.handling = [] := by
      rw [hold, hnew]
      rfl
    rw [hnone, List.append_nil, hg]
    exact h.same (hkept _ rfl) (hkept _ rfl)
  · refine h.turn hturn (fun owner ho => ?_) fun f => ?_
    · rw [hands_setDirect hr, if_neg ho]
    · rw [hands_setDirect hr, if_pos rfl, hands_direct hr, DirectRun.handling_flatMap, DirectRun.handling_flatMap, hset,
        hsame, htasks]
      refine List.perm_iff_count.mpr fun held => ?_
      have hcount := (hpumps f).count_eq held
      simp only [List.count_append] at hcount ⊢
      omega

theorem lagging_task {i j : Nat} {stop : Bool} {run next : DirectRun α}
    (h : Lagging start w.env.gauge w.hands events) (hr : w.directs[i]? = some run)
    (hs : run.stepTask w.env j stop = some next) :
    Lagging start w.env.gauge (w.setDirect i (w.env, next)).hands
      (events ++ w.noted (w.setDirect i (w.env, next)) (.task i j)) := by
  obtain ⟨task, handled, later, hj, hstep, hnext⟩ := DirectRun.stepTask_cases hs
  obtain ⟨_, hpumps, htasks⟩ := hstep.steady
  have hset : next.tasks = run.tasks.set j later := by rw [hnext, htasks]
  have hsame : next.pumps = run.pumps := by rw [hnext, hpumps]
  have hlater : next.tasks[j]? = some later := getElem?_of_set hset hj
  rw [noted_of (handling?_task hr hj) (handling?_task (setDirect_getElem? w.env next hr) hlater)]
  refine h.turn hstep.turn (fun owner ho => ?_) fun f => ?_
  · rw [hands_setDirect hr, if_neg ho]
  · rw [hands_setDirect hr, if_pos rfl, hands_direct hr, DirectRun.handling_flatMap, DirectRun.handling_flatMap, hset,
      hsame]
    refine List.perm_iff_count.mpr fun held => ?_
    have hcount := (flatMap_set_perm hj later fun task => f task.handling).count_eq held
    simp only [List.count_append] at hcount ⊢
    omega

end World

namespace Chronicle

variable {c d : Chronicle α}

theorem move_lagging {m : Move} (h : Lagging start c.world.env.gauge c.world.hands events) (ht : c.Tracked)
    (hf : ∀ key, c.world.env.broker.highWaterMark key ≤ maxOffset) (hm : c.world.Moved m v) :
    Lagging start v.env.gauge v.hands (events ++ c.world.noted v m.actor) := by
  cases hm with
  | watch hr hs =>
    obtain ⟨_, _, _, rfl, _⟩ := GroupRun.stepWatch_run hs
    refine Lagging.quiet ?_ (World.noted_none rfl)
    exact World.lagging_setGroup h hr (GroupRun.stepWatch_gauge hs) fun _ _ _ => rfl
  | closer hr hs =>
    obtain ⟨_, _, rfl⟩ := GroupRun.stepCloser_run hs
    refine Lagging.quiet ?_ (World.noted_none rfl)
    exact World.lagging_setGroup h hr (GroupRun.stepCloser_gauge hs) fun _ _ _ => rfl
  | @loop _ _ run _ _ hr hs =>
    obtain ⟨note, hd⟩ := ht.delivered hr
    have hstep := GroupRun.stepLoop_cases hs
    refine Lagging.quiet ?_ (World.noted_none rfl)
    exact World.lagging_setGroup h hr hstep.gauge fun f hw hp =>
      hstep.handling hd (ht.sessions run (List.mem_of_getElem? hr)) hw hp
  | claim hr hs =>
    obtain ⟨note, hd⟩ := ht.delivered hr
    exact World.lagging_claim h hr hd hf hs
  | pump hr hs =>
    refine World.lagging_pump h hr (fun pump hp => ht.pumps pump ?_) hf hs
    exact List.mem_flatMap.mpr ⟨_, List.mem_of_getElem? hr, hp⟩
  | task hr hs => exact World.lagging_task h hr hs

theorem start_lagging (h : Lagging start c.world.env.gauge c.world.hands events) {blueprint : Blueprint α}
    {token : Token}
    (hd : d.world = (Consumer.start c.world { blueprint := blueprint, connector := .broker } token).2.1) :
    Lagging start d.world.env.gauge d.world.hands events := by
  obtain ⟨hgauge, hgroups, hdirects⟩ := Consumer.start_gauge c.world blueprint token
  rw [← hd] at hgauge hgroups hdirects
  exact h.congr hgauge (World.hands_started rfl hgroups hdirects) (World.hands_started rfl hgroups hdirects)

theorem act_lagging {a : Act α} (h : Lagging start c.world.env.gauge c.world.hands events) (ht : c.Tracked)
    (hf : ∀ key, c.world.env.broker.highWaterMark key ≤ maxOffset) (ha : c.act? a = some d) :
    Lagging start d.world.env.gauge d.world.hands (events ++ c.noted d a) := by
  cases acted_of_act? (ht.faithful "").collects ha with
  | moved hm => exact move_lagging h ht hf hm
  | changed he =>
    refine Lagging.quiet ?_ rfl
    exact h.congr (change?_gauge he) (fun _ => rfl) fun _ => rfl
  | started hd => exact (start_lagging h (world_started hd)).quiet rfl
  | called hr | received hr | tookError hr | droppedMessages hr | droppedErrors hr =>
    refine Lagging.quiet ?_ rfl
    exact World.lagging_setGroup h hr rfl fun _ _ _ => rfl
  | unasked | acknowledged => exact h.quiet rfl
  | closedDirect =>
    refine Lagging.quiet ?_ rfl
    exact h.congr (closeClientLogging_gauge _ _) (fun _ => rfl) fun _ => rfl
  | @usedDirect i messages errors =>
    have hsame := World.hands_useDirect c.world i messages errors
    refine Lagging.quiet ?_ rfl
    exact h.congr rfl (fun owner => congrArg _ (hsame owner)) fun owner => congrArg _ (hsame owner)

theorem lagging_of_run {acts : List (Act α)} (h : Chronicle.run {} acts = some c)
    (hr : ∀ topic n, Act.outside (.replaceTopic topic n) ∉ acts) (hf : Fitting acts) :
    Lagging [] c.world.env.gauge c.world.hands (ledger {} acts) := by
  induction h using run_induction with
  | start => exact .new [] (fun owner => by cases owner <;> rfl) fun owner => by cases owner <;> rfl
  | @act acts before a c hb ha _ ih =>
    have hkept : ∀ topic n, Act.outside (.replaceTopic topic n) ∉ acts :=
      fun topic n hm => hr topic n (List.mem_append_left _ hm)
    have hbefore := ih hkept fun past later d he => hf past (later ++ [a]) d (by rw [he, List.append_assoc])
    rw [ledger_concat hb ha]
    exact act_lagging hbefore (tracked_of_run hb hkept) (hf acts [a] before rfl hb) ha

/-- A record that was taken is measured next, and nothing else can become of it. -/
theorem Tracked.measures (h : c.Tracked) (hf : ∀ key, c.world.env.broker.highWaterMark key ≤ maxOffset) {actor : Actor}
    {owner : Streams} {held : Held} (ha : c.world.handling? actor = some (owner, .taken held)) :
    c.world.step? ⟨actor, true⟩ = none ∧ ∃ v, c.world.step? ⟨actor, false⟩ = some v ∧
      v.handling? actor = some (owner, .measured held) := by
  cases actor with
  | claim i j =>
    obtain ⟨run, hr, ha⟩ := Option.bind_eq_some_iff.mp ha
    obtain ⟨claim, hj, ha⟩ := Option.bind_eq_some_iff.mp ha
    obtain ⟨rfl, hh⟩ := Prod.mk.inj (Option.some.inj ha)
    obtain ⟨r, hp, rfl⟩ := ClaimPhase.handling_taken hh
    obtain ⟨s, hl⟩ := GroupRun.serving_of_claim hj
    have hsj : s.claims[j]? = some claim := by rwa [GroupRun.claims, hl] at hj
    obtain ⟨note, hd⟩ := h.delivered hr
    obtain ⟨hstop, after, next, hs, hgroup, hset⟩ := GroupRun.stepClaim_taken hl hsj hp (hd.ahead hl hsj hp hf)
    have hlater : next.claims[j]? = some { claim with phase := .measured r } := getElem?_of_set hset hsj
    refine ⟨by simp [World.step?, hr, hstop], c.world.setGroup i (after, next), by simp [World.step?, hr, hs], ?_⟩
    rw [World.handling?_claim (c.world.setGroup_getElem? after next hr) hlater, hgroup]
    rfl
  | pump i j =>
    obtain ⟨run, hr, ha⟩ := Option.bind_eq_some_iff.mp ha
    obtain ⟨pump, hj, ha⟩ := Option.bind_eq_some_iff.mp ha
    obtain ⟨rfl, hh⟩ := Prod.mk.inj (Option.some.inj ha)
    obtain ⟨r, hp, rfl⟩ := PumpPhase.handling_taken hh
    have hm : pump ∈ c.world.pumps :=
      List.mem_flatMap.mpr ⟨run, List.mem_of_getElem? hr, List.mem_of_getElem? hj⟩
    obtain ⟨hstop, after, next, hs, hset⟩ := DirectRun.stepPump_taken hj hp ((h.pumps pump hm).ahead hp hf)
    have hlater : next.pumps[j]? = some { pump with phase := .measured r } := getElem?_of_set hset hj
    refine ⟨by simp [World.step?, hr, hstop], c.world.setDirect i (after, next), by simp [World.step?, hr, hs], ?_⟩
    rw [World.handling?_pump (World.setDirect_getElem? after next hr) hlater]
    rfl
  | task i j =>
    obtain ⟨run, hr, ha⟩ := Option.bind_eq_some_iff.mp ha
    obtain ⟨task, hj, ha⟩ := Option.bind_eq_some_iff.mp ha
    cases task <;> simp [DecodeTask.handling] at ha
  | _ => simp [World.handling?] at ha

end Chronicle

end TopicConsumer
