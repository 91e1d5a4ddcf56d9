import TopicConsumer.Proofs.SessionLoop
import TopicConsumer.Proofs.Turns

namespace TopicConsumer

open Environment

variable {α : Type}

namespace GroupRun

variable {env after : Environment} {run next : GroupRun α}

theorem meanwhile_same (h : env.Later after) (messages : Queue (Message α)) :
    run.Meanwhile env after { run with messages := messages } :=
  ⟨h, rfl, rfl, rfl, id, .inl rfl⟩

theorem HandlerStep.loop_same {session : Token} {claim later : Claim α}
    (h : HandlerStep env run session claim after next later) :
    next.retry = run.retry ∧ next.token = run.token ∧ next.streak = run.streak ∧
      next.errors = run.errors := by
  cases h <;> exact ⟨rfl, rfl, rfl, rfl⟩

/-- A run makes a step of its session loop, or one that is of no concern to the loop. -/
theorem Step.loops (h : run.Step env after next) :
    run.Meanwhile env after next ∨ ∃ stop, run.stepLoop env stop = some (after, next) := by
  cases h with
  | loop hs => exact .inr ⟨_, hs⟩
  | claim hs =>
    obtain ⟨session, claim, handled, later, hl, _, hh, rfl⟩ := stepClaim_cases hs
    have hk : Keeps "" env after := hh.keeps
    obtain ⟨hretry, htoken, hstreak, herrors⟩ := hh.loop_same
    exact .inl ⟨hk.later, hretry, htoken, hstreak, fun hheld => herrors ▸ hheld, .inr ⟨session, _, hl, rfl⟩⟩
  | aside _ _ _ _ hk hheld => exact .inl ⟨(hk "").later, rfl, rfl, rfl, hheld, .inl rfl⟩

end GroupRun

namespace Chronicle

variable {c d : Chronicle α}

theorem Turn.loops {topic : String} {a : Act α} (h : Turn topic c a d) {i : Nat} {next : GroupRun α}
    (hn : d.world.groups[i]? = some next) :
    (next.loop = .top ∧ next.streak = {}) ∨ ∃ run, c.world.groups[i]? = some run ∧
      (run.Meanwhile c.world.env d.world.env next ∨
        ∃ stop, run.stepLoop c.world.env stop = some (d.world.env, next)) := by
  cases h with
  | aside hk => exact .inr ⟨next, hn, .inl (GroupRun.meanwhile_same hk.later next.messages)⟩
  | @acknowledged _ _ _ ack =>
    have hl : c.world.env.Later (c.world.env.withBroker (c.world.env.broker.accept ack)) :=
      .of_eq rfl rfl rfl
    exact .inr ⟨next, hn, .inl (GroupRun.meanwhile_same hl next.messages)⟩
  | @stepped j run env after hr hs =>
    rcases getElem?_set_cases hn with ⟨rfl, rfl⟩ | ⟨_, hi⟩
    · exact .inr ⟨run, hr, hs.loops⟩
    · have hk : Keeps topic c.world.env env := hs.keeps
      exact .inr ⟨next, hi, .inl (GroupRun.meanwhile_same hk.later next.messages)⟩
  | @begun env run _ _ _ hk _ hl hs =>
    rcases Nat.lt_or_ge i c.world.groups.length with hb | hb
    · rw [List.getElem?_append_left hb] at hn
      exact .inr ⟨next, hn, .inl (GroupRun.meanwhile_same hk.later next.messages)⟩
    · rw [List.getElem?_append_right hb, List.getElem?_singleton] at hn
      split at hn <;> cases hn
      exact .inl ⟨hl, hs⟩
  | @received j run message messages hr ht =>
    rcases getElem?_set_cases hn with ⟨rfl, rfl⟩ | ⟨_, hi⟩
    · exact .inr ⟨run, hr, .inl (GroupRun.meanwhile_same (later_refl _) _)⟩
    · exact .inr ⟨next, hi, .inl (GroupRun.meanwhile_same (later_refl _) next.messages)⟩
  | @dropped j run hr =>
    rcases getElem?_set_cases hn with ⟨rfl, rfl⟩ | ⟨_, hi⟩
    · exact .inr ⟨run, hr, .inl (GroupRun.meanwhile_same (later_refl _) _)⟩
    · exact .inr ⟨next, hi, .inl (GroupRun.meanwhile_same (later_refl _) next.messages)⟩

theorem exists_topic_kept (a : Act α) : ∃ topic, ∀ n, a ≠ .outside (.replaceTopic topic n) := by
  by_cases h : ∃ n, a = .outside (.replaceTopic "" n)
  · obtain ⟨n, rfl⟩ := h
    exact ⟨"orders", fun m he => by simp at he⟩
  · exact ⟨"", fun n he => h ⟨n, he⟩⟩

theorem reaches_of_run {acts : List (Act α)} (hc : c.world.collects = [])
    (h : ∀ (i : Nat) (run : GroupRun α), c.world.groups[i]? = some run →
      ∃ events, GroupRun.Reaches c.world.env run events) (hr : c.run acts = some d)
    {i : Nat} {run : GroupRun α} (hi : d.world.groups[i]? = some run) :
    ∃ events, GroupRun.Reaches d.world.env run events := by
  induction acts generalizing c with
  | nil =>
    cases Option.some.inj hr
    exact h i run hi
  | cons a rest ih =>
    obtain ⟨next, ha, hrest⟩ := Option.bind_eq_some_iff.mp hr
    obtain ⟨topic, ht⟩ := exists_topic_kept a
    have hturn : Turn topic c a next := act?_turn ha hc ht
    refine ih (hturn.collects.trans hc) (fun j after hj => ?_) hrest
    rcases hturn.loops hj with ⟨hl, hs⟩ | ⟨before, hb, hm | ⟨stop, hs⟩⟩
    · exact ⟨[], .start hl hs⟩
    · obtain ⟨events, he⟩ := h j before hb
      exact ⟨events, he.meanwhile hm⟩
    · obtain ⟨events, he⟩ := h j before hb
      exact ⟨_, he.step hs⟩

/-- The loops of all group consumers that are ever started in a world. -/
theorem session_loops_of_world {acts : List (Act α)} (h : Chronicle.run {} acts = some c) {i : Nat}
    {run : GroupRun α} (hr : c.world.groups[i]? = some run) :
    ∃ events, GroupRun.Reaches c.world.env run events :=
  reaches_of_run rfl (fun _ _ hn => by simp at hn) h hr

end Chronicle

end TopicConsumer
