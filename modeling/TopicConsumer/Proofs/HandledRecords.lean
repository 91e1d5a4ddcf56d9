import TopicConsumer.Proofs.GaugeWrites
import TopicConsumer.Proofs.LagLedger

namespace TopicConsumer

variable {α : Type}

/-- What a record counts for in the gauge of a group, which is empty without one. -/
def Record.held (group : String) (r : Record) : Held := ⟨⟨group, r.topic, r.partition⟩, r.offset⟩

def ClaimPhase.handling (group : String) : ClaimPhase α → Handling
  | .asking _ => .waiting
  | .taken r => .taken (r.held group)
  | .measured r => .measured (r.held group)
  | _ => .past

def PumpPhase.handling : PumpPhase α → Handling
  | .asking _ => .waiting
  | .taken r => .taken (r.held "")
  | .measured r => .measured (r.held "")
  | _ => .past

def DecodeTask.handling : DecodeTask α → Handling
  | .decoding r => .measured (r.held "")
  | _ => .past

def GroupRun.handling (run : GroupRun α) : List Handling := run.claims.map (·.phase.handling run.group)

def DirectRun.handling (run : DirectRun α) : List Handling :=
  run.pumps.map (·.phase.handling) ++ run.tasks.map (·.handling)

/-- The high water mark that is seen with a record is ahead of the record, and can be told as an offset. -/
structure Ahead (mark : Held → Int) (held : Held) (high : Int) : Prop where
  mark : high = mark held
  nonneg : 0 ≤ held.offset
  ahead : held.offset < high
  fits : high ≤ maxOffset

variable {mark : Held → Int} {env after : Environment}

theorem Environment.measure_ahead {group : String} {source : Source} {r : Record}
    (h : Ahead mark (r.held group) (source.highWaterMark env.broker)) :
    env.measure group source r = .ok { env with
      gauge := Table.set (r.held group).labels (mark (r.held group) - (r.held group).offset) env.gauge } := by
  have hgap : minOffset ≤ source.highWaterMark env.broker - r.offset ∧
      source.highWaterMark env.broker - r.offset ≤ maxOffset := by
    have h0 : 0 ≤ r.offset := h.nonneg
    have hlt : r.offset < source.highWaterMark env.broker := h.ahead
    have hmax := h.fits
    unfold minOffset maxOffset at *
    omega
  rw [← h.mark]
  simp only [measure, Gauge.measure, offsetGap, if_pos hgap, Record.held]

theorem Environment.measure_turn {group : String} {source : Source} {r : Record}
    (h : Ahead mark (r.held group) (source.highWaterMark env.broker)) (hm : env.measure group source r = .ok after) :
    Handling.Turn mark env.gauge (.taken (r.held group)) (.measured (r.held group)) after.gauge := by
  rw [measure_ahead h] at hm
  cases hm
  exact .measured _ h.nonneg (h.mark ▸ h.ahead) (h.mark ▸ h.fits)

theorem Claim.ask_phase {claim later : Claim α} {b c : Broker} {stage : Stage} {found : Found}
    (h : claim.ask b stage = some (c, later, found)) :
    (∃ stage, later.phase = .asking stage) ∨ (∃ r, later.phase = .taken r) ∨
      ∃ result, later.phase = .finished result := by
  obtain ⟨⟨_, _, found'⟩, _, he⟩ := Option.map_eq_some_iff.mp h
  cases found' with
  | going stage =>
    cases he
    exact .inl ⟨stage, rfl⟩
  | record r =>
    cases he
    exact .inr (.inl ⟨_, rfl⟩)
  | failed | ended =>
    cases he
    exact .inr (.inr ⟨_, rfl⟩)

namespace GroupRun

variable {run next : GroupRun α} {session : Token} {claim later : Claim α}

theorem HandlerStep.turn (h : HandlerStep env run session claim after next later)
    (ha : ∀ r, claim.phase = .taken r → Ahead mark (r.held run.group) (claim.source.highWaterMark env.broker)) :
    Handling.Turn mark env.gauge (claim.phase.handling run.group) (later.phase.handling run.group) after.gauge := by
  cases h with
  | stopped hp =>
    refine .idle ?_ (.inr rfl)
    obtain ⟨_, hp⟩ | ⟨_, _, hp⟩ := hp
    · exact .inl (by rw [hp]; rfl)
    · exact .inr (by rw [hp]; rfl)
  | asked hp hask =>
    rw [hp]
    obtain ⟨_, hl⟩ | ⟨r, hl⟩ | ⟨_, hl⟩ := Claim.ask_phase hask
    · rw [hl]
      exact .idle (.inl rfl) (.inl rfl)
    · rw [hl]
      exact .taken _
    · rw [hl]
      exact .idle (.inl rfl) (.inr rfl)
  | measured hp hm =>
    rw [hp]
    exact Environment.measure_turn (ha _ hp) hm
  | crashed hp hm =>
    rw [Environment.measure_ahead (ha _ hp)] at hm
    simp at hm
  | rejected hp | decoded hp =>
    rw [hp]
    exact .decoded _
  | queued hp =>
    rw [hp]
    exact .idle (.inr rfl) (.inl rfl)
  | unheard hp =>
    rw [hp]
    exact .idle (.inr rfl) (.inr rfl)

/-- A record that was taken is measured next, and only that can happen. -/
theorem stepHandler_taken {r : Record} (session : Token) (hp : claim.phase = .taken r)
    (ha : Ahead mark (r.held run.group) (claim.source.highWaterMark env.broker)) :
    run.stepHandler env session claim true = none ∧ ∃ after,
      run.stepHandler env session claim false = some (after, run, { claim with phase := .measured r }) := by
  simp only [stepHandler, hp, Environment.measure_ahead ha]
  exact ⟨trivial, _, rfl⟩

theorem stepClaim_taken {s : Session α} {i : Nat} {r : Record} (hl : run.loop = .serving s)
    (hi : s.claims[i]? = some claim) (hp : claim.phase = .taken r)
    (ha : Ahead mark (r.held run.group) (claim.source.highWaterMark env.broker)) :
    run.stepClaim env i true = none ∧ ∃ after next, run.stepClaim env i false = some (after, next) ∧
      next.group = run.group ∧ next.claims = s.claims.set i { claim with phase := .measured r } := by
  obtain ⟨hstop, after, hs⟩ := stepHandler_taken s.token hp ha
  simp only [stepClaim, hl, hi, hstop, hs]
  exact ⟨trivial, after, _, rfl, rfl, rfl⟩

end GroupRun

namespace DirectRun

variable {run next : DirectRun α} {pump later : Pump α}

/-- A pump gets on with its record, or leaves it, measured, to a new task. -/
theorem PumpStep.turn (h : PumpStep env run pump after next later)
    (ha : ∀ r, pump.phase = .taken r → Ahead mark (r.held "") (pump.reader.source.highWaterMark env.broker)) :
    (∃ r, pump.phase.handling = .measured (r.held "") ∧ later.phase.handling = .waiting ∧
        next.tasks = run.tasks ++ [.decoding r] ∧ after.gauge = env.gauge) ∨
      (next.tasks = run.tasks ∧
        Handling.Turn mark env.gauge pump.phase.handling later.phase.handling after.gauge) := by
  cases h with
  | @spawned r hp => exact .inl ⟨r, by rw [hp]; rfl, rfl, rfl, rfl⟩
  | stopped hp | shut hp =>
    rw [hp]
    exact .inr ⟨rfl, .idle (.inl rfl) (.inr rfl)⟩
  | @asked _ _ _ found hp =>
    rw [hp]
    refine .inr ⟨rfl, ?_⟩
    cases found with
    | going => exact .idle (.inl rfl) (.inl rfl)
    | record => exact .taken _
    | failed | ended => exact .idle (.inl rfl) (.inr rfl)
  | measured hp hm =>
    rw [hp]
    exact .inr ⟨rfl, Environment.measure_turn (ha _ hp) hm⟩
  | crashed hp hm =>
    rw [Environment.measure_ahead (ha _ hp)] at hm
    simp at hm
  | decoded hp =>
    rw [hp]
    exact .inr ⟨rfl, .decoded _⟩
  | dropped hp =>
    rw [hp]
    exact .inr ⟨rfl, .idle (.inr rfl) (.inl rfl)⟩
  | delivered hp hd =>
    rw [hp]
    exact .inr ⟨(deliver_cases hd).steady.2.2, .idle (.inr rfl) (.inl rfl)⟩
  | closed hp | failed hp =>
    rw [hp, Environment.closeReaderLogging_gauge]
    exact .inr ⟨rfl, .idle (.inr rfl) (.inr rfl)⟩
  | unreported hp =>
    rw [hp]
    exact .inr ⟨rfl, .idle (.inr rfl) (.inr rfl)⟩
  | reported hp hd =>
    rw [hp]
    exact .inr ⟨(deliver_cases hd).steady.2.2, .idle (.inr rfl) (.inr rfl)⟩

theorem TaskStep.turn {gauge : Gauge} {task later : DecodeTask α} (h : TaskStep env run task next later) :
    Handling.Turn mark gauge task.handling later.handling gauge := by
  cases h with
  | decoded ht =>
    rw [ht]
    exact .decoded _
  | dropped ht | delivered ht =>
    rw [ht]
    exact .idle (.inr rfl) (.inr rfl)

theorem stepPumpAlone_taken {r : Record} (run : DirectRun α) (hp : pump.phase = .taken r)
    (ha : Ahead mark (r.held "") (pump.reader.source.highWaterMark env.broker)) :
    run.stepPumpAlone env pump true = none ∧ ∃ after,
      run.stepPumpAlone env pump false = some (after, run, { pump with phase := .measured r }) := by
  simp only [stepPumpAlone, hp, Environment.measure_ahead ha]
  exact ⟨trivial, _, rfl⟩

theorem stepPump_taken {i : Nat} {r : Record} (hi : run.pumps[i]? = some pump) (hp : pump.phase = .taken r)
    (ha : Ahead mark (r.held "") (pump.reader.source.highWaterMark env.broker)) :
    run.stepPump env i true = none ∧ ∃ after next, run.stepPump env i false = some (after, next) ∧
      next.pumps = run.pumps.set i { pump with phase := .measured r } := by
  obtain ⟨hstop, after, hs⟩ := stepPumpAlone_taken run hp ha
  simp only [stepPump, hi, hstop, hs]
  exact ⟨trivial, after, _, rfl, rfl⟩

end DirectRun

end TopicConsumer
