import TopicConsumer.Proofs.Channels
import TopicConsumer.Proofs.DirectSteps

namespace TopicConsumer

/-- A reader or a claim of a partition. A reader that was closed is one that is not called any more. -/
structure Listener where
  cursor : Cursor
  /-- Readers check for a failure of their partition, claims do not. -/
  checks : Bool
  stage : Option Stage := none
deriving DecidableEq

/-- What is kept of the past. Listeners are numbered in the order in which they were opened. -/
inductive Notice where
  | failing (key : PartitionKey) (reason : String)
  | created (topic : String)
  | called (listener : Nat)
  | sound (listener : Nat) (key : PartitionKey)
  | failed (listener : Nat) (key : PartitionKey) (failure : Failure)
  | got (listener : Nat) (record : Record)
deriving DecidableEq

/-- Readers and claims that call for their next records from one broker, one step at a time and in any order. -/
structure Listening where
  env : Environment := {}
  listeners : List Listener := []
  history : List Notice := []

inductive ListenAct where
  | open (key : PartitionKey) (position : Int) (checks : Bool)
  | call (listener : Nat)
  | step (listener : Nat)
  | abandon (listener : Nat)
  | outside (change : Outside)

def Found.stage? : Found → Option Stage
  | .going stage => some stage
  | _ => none

def Found.notices (i : Nat) (key : PartitionKey) : Stage → Found → List Notice
  | .checking, .going _ => [.sound i key]
  | _, .failed failure => [.failed i key failure]
  | _, .record r => [.got i r]
  | _, _ => []

def Outside.notices : Outside → List Notice
  | .failPartition key reason => [.failing key reason]
  | .createTopic topic _ | .replaceTopic topic _ => [.created topic]
  | _ => []

namespace Notice

def listener? : Notice → Option Nat
  | called i | sound i _ | failed i _ _ | got i _ => some i
  | failing _ _ | created _ => none

/-- Whether the failure of a partition was set, taken or dropped. -/
def concerns (key : PartitionKey) : Notice → Bool
  | failing changed _ | failed _ changed _ => changed = key
  | created topic => topic = key.1
  | called _ | sound _ _ | got _ _ => false

def leaves (key : PartitionKey) (failure : Option String) : Notice → Option String
  | failing changed reason => if changed = key then some reason else failure
  | failed _ changed _ => if changed = key then none else failure
  | created topic => if topic = key.1 then none else failure
  | called _ | sound _ _ | got _ _ => failure

/-- The failure of a partition that was set and not taken since. -/
def pending (key : PartitionKey) (history : List Notice) : Option String := history.foldl (leaves key) none

theorem leaves_unconcerned {key : PartitionKey} {n : Notice} (h : n.concerns key = false)
    (failure : Option String) : n.leaves key failure = failure := by
  cases n <;> simp_all [concerns, leaves]

theorem leaves_some {key : PartitionKey} {n : Notice} {failure : Option String} {reason : String}
    (hn : n.concerns key = true) (h : n.leaves key failure = some reason) : n = .failing key reason := by
  cases n <;> simp_all [concerns, leaves]

theorem pending_concat (key : PartitionKey) (history : List Notice) (n : Notice) :
    pending key (history ++ [n]) = n.leaves key (pending key history) := by
  simp [pending]

/-- A pending failure was set, and nothing concerned its partition since. -/
theorem exists_failing {key : PartitionKey} {history : List Notice} {reason : String}
    (h : pending key history = some reason) : ∃ m : Nat, history[m]? = some (failing key reason) ∧
      ∀ (k : Nat) (n : Notice), m < k → history[k]? = some n → n.concerns key = false := by
  induction history using List.reverseRecOn with
  | nil => simp [pending] at h
  | append_singleton history n ih =>
    rw [pending_concat] at h
    have hlast {k : Nat} {e : Notice} (hk : (history ++ [n])[k]? = some e) :
        history[k]? = some e ∨ (k = history.length ∧ e = n) := by
      grind
    by_cases hn : n.concerns key = true
    · refine ⟨history.length, by simp [leaves_some hn h], fun k e hk he => ?_⟩
      have hend := (List.getElem?_eq_some_iff.mp he).1
      simp at hend
      omega
    · have hn' : n.concerns key = false := by simpa using hn
      rw [leaves_unconcerned hn'] at h
      obtain ⟨m, hm, hlater⟩ := ih h
      have hb := (List.getElem?_eq_some_iff.mp hm).1
      refine ⟨m, by rw [List.getElem?_append_left hb, hm], fun k e hk he => ?_⟩
      obtain he | ⟨_, rfl⟩ := hlast he
      · exact hlater k e hk he
      · exact hn'

end Notice

theorem Found.length_notices (i : Nat) (key : PartitionKey) (stage : Stage) (found : Found) :
    (found.notices i key stage).length ≤ 1 := by
  cases stage <;> cases found <;> simp [notices]

theorem Found.listener?_of_notices {i : Nat} {key : PartitionKey} {stage : Stage} {found : Found} {n : Notice}
    (h : n ∈ found.notices i key stage) : n.listener? = some i := by
  cases stage <;> cases found <;> simp_all [notices, Notice.listener?]

theorem Outside.length_notices (change : Outside) : change.notices.length ≤ 1 := by
  cases change <;> simp [notices]

theorem Outside.notices_of_aside {change : Outside} (h : change.ofLogs = false) : change.notices = [] := by
  cases change <;> simp_all [ofLogs, notices]

theorem Outside.listener?_of_notices {change : Outside} {n : Notice} (h : n ∈ change.notices) :
    n.listener? = none := by
  cases change <;> simp_all [notices, Notice.listener?]

namespace Listening

variable {s t : Listening}

/-- What an act makes of the listeners and their broker; `none` if it cannot happen, which goes for the step of a
call that waits. -/
def act? (s : Listening) : ListenAct → Option Listening
  | .open key position checks =>
    match Cursor.open? s.env.broker key position with
    | .error _ => none
    | .ok cursor => some { s with listeners := s.listeners ++ [⟨cursor, checks, none⟩] }
  | .call i =>
    match s.listeners[i]? with
    | some ⟨cursor, checks, none⟩ =>
      some { s with
        listeners := s.listeners.set i ⟨cursor, checks, some .marking⟩
        history := s.history ++ [.called i] }
    | _ => none
  | .step i =>
    match s.listeners[i]? with
    | some ⟨cursor, checks, some stage⟩ =>
      (cursor.step s.env.broker checks stage).map fun (broker, next, found) =>
        { env := s.env.withBroker broker
          listeners := s.listeners.set i ⟨next, checks, found.stage?⟩
          history := s.history ++ found.notices i cursor.key stage }
    | _ => none
  | .abandon i => s.listeners[i]?.map fun l => { s with listeners := s.listeners.set i { l with stage := none } }
  | .outside change =>
    (s.env.change? change).map fun env => { s with env := env, history := s.history ++ change.notices }

def run (s : Listening) (acts : List ListenAct) : Option Listening := acts.foldlM act? s

inductive Heeds (s : Listening) : Listening → Prop where
  | opened {key position checks cursor} : Cursor.open? s.env.broker key position = .ok cursor →
      Heeds s { s with listeners := s.listeners ++ [⟨cursor, checks, none⟩] }
  | called {i cursor checks} : s.listeners[i]? = some ⟨cursor, checks, none⟩ →
      Heeds s { s with
        listeners := s.listeners.set i ⟨cursor, checks, some .marking⟩
        history := s.history ++ [.called i] }
  | stepped {i cursor checks stage broker next found} : s.listeners[i]? = some ⟨cursor, checks, some stage⟩ →
      cursor.Step s.env.broker checks stage broker next found →
      Heeds s
        { env := s.env.withBroker broker
          listeners := s.listeners.set i ⟨next, checks, found.stage?⟩
          history := s.history ++ found.notices i cursor.key stage }
  | abandoned {i l} : s.listeners[i]? = some l →
      Heeds s { s with listeners := s.listeners.set i { l with stage := none } }
  | changed {change env} : s.env.change? change = some env →
      Heeds s { s with env := env, history := s.history ++ change.notices }

theorem act?_cases {a : ListenAct} (h : s.act? a = some t) : s.Heeds t := by
  cases a with
  | «open» key position checks =>
    simp only [act?] at h
    split at h
    next => simp at h
    next ho =>
      cases h
      exact .opened ho
  | call i =>
    simp only [act?] at h
    split at h
    next hl =>
      cases h
      exact .called hl
    next => simp at h
  | step i =>
    simp only [act?] at h
    split at h
    next hl =>
      obtain ⟨⟨broker, next, found⟩, hs, he⟩ := Option.map_eq_some_iff.mp h
      cases he
      exact .stepped hl (Cursor.step_cases hs)
    next => simp at h
  | abandon i =>
    obtain ⟨l, hl, he⟩ := Option.map_eq_some_iff.mp h
    cases he
    exact .abandoned hl
  | outside change =>
    obtain ⟨env, hc, he⟩ := Option.map_eq_some_iff.mp h
    cases he
    exact .changed hc

end Listening

end TopicConsumer
