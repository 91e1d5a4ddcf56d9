import TopicConsumer.Proofs.SessionClaims

namespace TopicConsumer

inductive SessionEnd where
  | cancelled
  | revoked
  | closed
  | failed (failure : Failure)

/-- A group session in the loop that feeds it. A handler that returns well gives its claim back, and the next record of the
partition makes a new one; any other end of a handler, or of fetching, ends the session. -/
structure LoopedSession where
  play : SessionPlay
  joined : List Nat := []
  ending : Option SessionEnd := none
  history : List SessionEvent := []

inductive LoopAct where
  /-- Something happens in the session, apart from what joining does. -/
  | event (e : SessionEvent)
  | join (i : Nat)
  /-- The loop ends, but for a handler that failed. -/
  | quit (ending : SessionEnd)

namespace LoopedSession

def new (cancelled : Bool) (marks : Watermarks) : LoopedSession where
  play := { session := RoutedSession.new cancelled marks }

def waits (l : LoopedSession) : Bool := l.ending.isNone && l.play.routing.isNone && !l.play.stopped

/-- What the loop lets happen. A route is abandoned only when the session is cancelled. -/
def allows (l : LoopedSession) : SessionEvent → Bool
  | .claim _ => l.ending.isNone
  | .fetch _ => l.ending.isNone
  | .giveUp _ => l.play.session.cancelled
  | .forget _ => false
  | .stop => l.ending.isSome
  | _ => true

def quits (l : LoopedSession) : SessionEnd → Bool
  | .cancelled => l.waits && l.play.session.cancelled
  | _ => l.waits

def act? (l : LoopedSession) : LoopAct → Option LoopedSession
  | .event e =>
    if l.allows e then (l.play.step? e).map fun play => { l with play := play, history := l.history ++ [e] }
    else none
  | .join i =>
    if l.waits && !l.joined.contains i then
      match l.play.session.claims[i]? with
      | none => none
      | some c =>
        match c.result with
        | none => none
        | some (.ok ()) =>
          some { l with
            play := { l.play with session := l.play.session.forget c.claim.key }
            joined := l.joined ++ [i]
            history := l.history ++ [.forget c.claim.key] }
        | some (.error failure) => some { l with joined := l.joined ++ [i], ending := some (.failed failure) }
    else none
  | .quit ending => if l.quits ending then some { l with ending := some ending } else none

def run (l : LoopedSession) : List LoopAct → Option LoopedSession
  | [] => some l
  | a :: rest => (l.act? a).bind (·.run rest)

/-- Where partitions are read again after the session: nowhere, unless it failed. -/
def rewinds? (l : LoopedSession) : Option (List (PartitionKey × Int)) :=
  match l.ending with
  | some (.failed _) => l.play.finished?
  | _ => none

inductive Step (l : LoopedSession) : LoopedSession → Prop where
  | happened {e play} : (∀ key, e ≠ .forget key) → l.play.step? e = some play →
      Step l { l with play := play, history := l.history ++ [e] }
  | joined {i : Nat} {c result} : l.play.session.claims[i]? = some c → c.result = some result → i ∉ l.joined →
      l.play.stopped = false → l.play.routing = none →
      Step l { l with
        play := { l.play with session := l.play.session.forget c.claim.key }
        joined := l.joined ++ [i]
        history := l.history ++ [.forget c.claim.key] }
  | ended {joined ending} : (∀ i ∈ joined, i ∉ l.joined →
        ∃ c, l.play.session.claims[i]? = some c ∧ c.result.isSome = true) → l.joined ⊆ joined →
      Step l { l with joined := joined, ending := ending }

variable {l m : LoopedSession}

theorem act?_cases {a : LoopAct} (h : l.act? a = some m) : Step l m := by
  cases a with
  | event e =>
    simp only [act?] at h
    split at h
    next ha =>
      obtain ⟨play, hp, rfl⟩ := Option.map_eq_some_iff.mp h
      refine .happened ?_ hp
      rintro key rfl
      simp [allows] at ha
    next => simp at h
  | join i =>
    simp only [act?] at h
    split at h
    next hw =>
      simp only [waits, Bool.and_eq_true, Option.isNone_iff_eq_none, Bool.not_eq_true', List.contains_eq_mem,
        decide_eq_false_iff_not] at hw
      obtain ⟨⟨⟨_, hr⟩, hstopped⟩, hi⟩ := hw
      split at h
      next => simp at h
      next c hc =>
        split at h
        next => simp at h
        next hresult =>
          cases h
          exact .joined hc hresult hi hstopped hr
        next hresult =>
          cases h
          refine .ended (fun j hj hn => ?_) (List.subset_append_left _ _)
          rcases List.mem_append.mp hj with hj | hj
          · exact absurd hj hn
          · exact ⟨c, List.mem_singleton.mp hj ▸ hc, by simp [hresult]⟩
    next => simp at h
  | quit ending =>
    simp only [act?] at h
    split at h
    next =>
      cases h
      exact .ended (fun i hi hn => absurd hi hn) (List.Subset.refl _)
    next => simp at h

end LoopedSession

/-- Each claim stays with its partition, and no handler that has returned is at work again. -/
structure SessionPlay.KeepsClaims (p q : SessionPlay) : Prop where
  length : q.session.claims.length = p.session.claims.length
  same : ∀ (i : Nat) c d, p.session.claims[i]? = some c → q.session.claims[i]? = some d →
    d.claim.key = c.claim.key ∧ (d.result = none → c.result = none)

namespace SessionPlay.KeepsClaims

variable {p q : SessionPlay} {i : Nat} {c d : HandledClaim}

theorem before (h : p.KeepsClaims q) (hd : q.session.claims[i]? = some d) :
    ∃ c, p.session.claims[i]? = some c ∧ d.claim.key = c.claim.key ∧ (d.result = none → c.result = none) := by
  have hb : i < p.session.claims.length := h.length ▸ (List.getElem?_eq_some_iff.mp hd).1
  have hc : p.session.claims[i]? = some p.session.claims[i] := List.getElem?_eq_getElem hb
  exact ⟨_, hc, h.same i _ d hc hd⟩

theorem after (h : p.KeepsClaims q) (hc : p.session.claims[i]? = some c) :
    ∃ d, q.session.claims[i]? = some d ∧ d.claim.key = c.claim.key ∧ (d.result = none → c.result = none) := by
  have hb : i < q.session.claims.length := h.length.symm ▸ (List.getElem?_eq_some_iff.mp hc).1
  have hd : q.session.claims[i]? = some q.session.claims[i] := List.getElem?_eq_getElem hb
  exact ⟨_, hd, h.same i c _ hc hd⟩

theorem set (hc : p.session.claims[i]? = some c) (hq : q.session.claims = p.session.claims.set i d)
    (hk : d.claim.key = c.claim.key) (hr : d.result = none → c.result = none) : p.KeepsClaims q where
  length := by rw [hq, List.length_set]
  same j x y hx hy := by
    rw [hq] at hy
    rcases RoutedSession.setClaim_getElem? (s := p.session) hy with ⟨rfl, rfl⟩ | ⟨_, hy⟩
    · cases Option.some.inj (hx.symm.trans hc)
      exact ⟨hk, hr⟩
    · cases Option.some.inj (hx.symm.trans hy)
      exact ⟨rfl, id⟩

theorem stop (p : SessionPlay) : p.KeepsClaims { p with session := p.session.stop, stopped := true } where
  length := by simp [RoutedSession.stop]
  same i c d hc hd := by
    simp only [RoutedSession.stop, List.getElem?_map, hc, Option.map_some, Option.some.injEq] at hd
    subst hd
    exact ⟨rfl, id⟩

end SessionPlay.KeepsClaims

/-- Of the claims of a partition only the latest can be in the hands of a handler, and it is the one that records
are sent to. -/
structure Respawned (p : SessionPlay) (joined : List Nat) : Prop where
  found : ∀ key (i : Nat), p.session.senders.get? key = some i →
    ∃ c, p.session.claims[i]? = some c ∧ c.claim.key = key
  sender : p.stopped = false → ∀ (i : Nat) c, p.session.claims[i]? = some c → i ∉ joined →
    p.session.senders.get? c.claim.key = some i
  returned : ∀ i ∈ joined, ∃ c, p.session.claims[i]? = some c ∧ c.result.isSome = true
  single : ∀ (i j : Nat) c d, p.session.claims[i]? = some c → p.session.claims[j]? = some d → c.result = none →
    d.result = none → c.claim.key = d.claim.key → i = j

namespace Respawned

variable {p q : SessionPlay} {joined : List Nat}

theorem live (h : Respawned p joined) {i : Nat} {c : HandledClaim} (hc : p.session.claims[i]? = some c)
    (hr : c.result = none) : i ∉ joined := by
  intro hi
  obtain ⟨d, hd, hsome⟩ := h.returned i hi
  cases Option.some.inj (hd.symm.trans hc)
  simp [hr] at hsome

theorem returned_of (h : Respawned p joined) (hk : p.KeepsClaims q) :
    ∀ i ∈ joined, ∃ d, q.session.claims[i]? = some d ∧ d.result.isSome = true := by
  intro i hi
  obtain ⟨c, hc, hsome⟩ := h.returned i hi
  obtain ⟨d, hd, _, hr⟩ := hk.after hc
  refine ⟨d, hd, ?_⟩
  cases hdr : d.result with
  | none => simp [hr hdr] at hsome
  | some => rfl

theorem single_of (h : Respawned p joined) (hk : p.KeepsClaims q) : ∀ (i j : Nat) c d,
    q.session.claims[i]? = some c → q.session.claims[j]? = some d → c.result = none → d.result = none →
      c.claim.key = d.claim.key → i = j := by
  intro i j c d hc hd hcr hdr hkey
  obtain ⟨x, hx, hxk, hxr⟩ := hk.before hc
  obtain ⟨y, hy, hyk, hyr⟩ := hk.before hd
  exact h.single i j x y hx hy (hxr hcr) (hyr hdr) (by rw [← hxk, ← hyk, hkey])

theorem keep (h : Respawned p joined) (hk : p.KeepsClaims q) (hs : q.session.senders = p.session.senders)
    (hst : q.stopped = p.stopped) : Respawned q joined where
  found key i hi := by
    obtain ⟨c, hc, hkey⟩ := h.found key i (hs ▸ hi)
    obtain ⟨d, hd, hdk, _⟩ := hk.after hc
    exact ⟨d, hd, hdk.trans hkey⟩
  sender ho i d hd hi := by
    obtain ⟨c, hc, hkey, _⟩ := hk.before hd
    rw [hs, hkey]
    exact h.sender (hst ▸ ho) i c hc hi
  returned := h.returned_of hk
  single := h.single_of hk

theorem edit (h : Respawned p joined) {i : Nat} {c d : HandledClaim} (hc : p.session.claims[i]? = some c)
    (hq : q.session.claims = p.session.claims.set i d) (hk : d.claim.key = c.claim.key)
    (hr : d.result = none → c.result = none) (hs : q.session.senders = p.session.senders)
    (hst : q.stopped = p.stopped) : Respawned q joined :=
  h.keep (.set hc hq hk hr) hs hst

theorem congr (h : Respawned p joined) (hc : q.session.claims = p.session.claims)
    (hs : q.session.senders = p.session.senders) (hst : q.stopped = p.stopped) : Respawned q joined := by
  refine ⟨?_, ?_, ?_, ?_⟩ <;> simp only [hc, hs, hst]
  exacts [h.found, h.sender, h.returned, h.single]

/-- A partition gets a new claim only if none of its claims is in the hands of a handler. -/
theorem claim (h : Respawned p joined) (ho : p.stopped = false) (key : PartitionKey) :
    Respawned { p with session := p.session.claim key } joined := by
  cases hs : p.session.senders.get? key with
  | some i =>
    refine h.congr ?_ ?_ rfl
    · simp [RoutedSession.claims_claim, hs]
    · simp [RoutedSession.claim, hs]
  | none =>
    have hclaims := RoutedSession.claims_claim p.session key
    have hsenders := RoutedSession.senders_claim p.session key
    simp only [hs, Option.isSome_none, Bool.false_eq_true, ↓reduceIte] at hclaims hsenders
    -- Records of the partition are sent nowhere, and a claim that was not joined would get them.
    have hgone : ∀ (i : Nat) c, p.session.claims[i]? = some c → c.claim.key = key → i ∈ joined := by
      intro i c hc hkey
      by_contra hn
      have hsome := h.sender ho i c hc hn
      rw [hkey, hs] at hsome
      simp at hsome
    have hold : ∀ (i : Nat) c, p.session.claims[i]? = some c → (p.session.claim key).claims[i]? = some c := by
      intro i c hc
      rw [hclaims, List.getElem?_append_left (List.getElem?_eq_some_iff.mp hc).1, hc]
    have hcases : ∀ (i : Nat) c, (p.session.claim key).claims[i]? = some c →
        p.session.claims[i]? = some c ∨ i = p.session.claims.length ∧ c.claim.key = key := by
      intro i c hc
      rw [hclaims] at hc
      rcases Nat.lt_or_ge i p.session.claims.length with hi | hi
      · exact .inl (by rwa [List.getElem?_append_left hi] at hc)
      · rw [List.getElem?_append_right hi, List.getElem?_singleton] at hc
        split at hc
        next he =>
          cases hc
          exact .inr ⟨by omega, rfl⟩
        next => simp at hc
    refine ⟨?_, ?_, ?_, ?_⟩
    · intro k i hi
      rw [hsenders] at hi
      split at hi
      next hk =>
        cases hi
        exact ⟨_, by rw [hclaims, List.getElem?_append_right (Nat.le_refl _)]; simp; rfl, hk.symm⟩
      next =>
        obtain ⟨c, hc, hkey⟩ := h.found k i hi
        exact ⟨c, hold i c hc, hkey⟩
    · intro _ i c hc hi
      rw [hsenders]
      rcases hcases i c hc with hc | ⟨rfl, hk⟩
      · rw [if_neg fun hk => hi (hgone i c hc hk)]
        exact h.sender ho i c hc hi
      · rw [if_pos hk]
    · intro i hi
      obtain ⟨c, hc, hr⟩ := h.returned i hi
      exact ⟨c, hold i c hc, hr⟩
    · intro i j c d hc hd hcr hdr hkey
      rcases hcases i c hc with hc | ⟨rfl, hck⟩ <;> rcases hcases j d hd with hd | ⟨rfl, hdk⟩
      · exact h.single i j c d hc hd hcr hdr hkey
      · exact absurd (hgone i c hc (hkey.trans hdk)) (h.live hc hcr)
      · exact absurd (hgone j d hd (hkey.symm.trans hck)) (h.live hd hdr)
      · rfl

theorem more (h : Respawned p joined) {later : List Nat} (hm : joined ⊆ later)
    (hl : ∀ i ∈ later, i ∉ joined → ∃ c, p.session.claims[i]? = some c ∧ c.result.isSome = true) :
    Respawned p later where
  found := h.found
  sender ho i c hc hi := h.sender ho i c hc fun hj => hi (hm hj)
  returned i hi := by
    by_cases hj : i ∈ joined
    · exact h.returned i hj
    · exact hl i hi hj
  single := h.single

/-- A handler that has returned is joined, and its claim is given back. -/
theorem forget (h : Respawned p joined) (ho : p.stopped = false) {i : Nat} {c : HandledClaim}
    (hc : p.session.claims[i]? = some c) (hr : c.result.isSome = true) (hi : i ∉ joined) :
    Respawned { p with session := p.session.forget c.claim.key } (joined ++ [i]) := by
  have hmine : p.session.senders.get? c.claim.key = some i := h.sender ho i c hc hi
  have hget : ∀ key, (p.session.forget c.claim.key).senders.get? key =
      if key = c.claim.key then none else p.session.senders.get? key := fun key => by
    simp [RoutedSession.forget, Table.get?_erase]
  refine ⟨?_, ?_, ?_, h.single⟩
  · intro key j hj
    rw [hget] at hj
    split at hj
    next => simp at hj
    next => exact h.found key j hj
  · intro _ j d hd hj
    simp only [List.mem_append, List.mem_singleton, not_or] at hj
    have hsome := h.sender ho j d hd hj.1
    rw [hget]
    split
    next hkey =>
      rw [hkey, hmine] at hsome
      exact absurd (Option.some.inj hsome).symm hj.2
    next => exact hsome
  · intro j hj
    rcases List.mem_append.mp hj with hj | hj
    · exact h.returned j hj
    · exact ⟨c, List.mem_singleton.mp hj ▸ hc, hr⟩

theorem stop (h : Respawned p joined) : Respawned { p with session := p.session.stop, stopped := true } joined where
  found := by simp [RoutedSession.stop, Table.get?]
  sender := by simp
  returned := h.returned_of (.stop p)
  single := h.single_of (.stop p)

theorem new (cancelled : Bool) (marks : Watermarks) : Respawned { session := RoutedSession.new cancelled marks } [] := by
  constructor <;> simp [RoutedSession.new, Table.get?]

end Respawned

/-- A record that was routed is queued last at the claim that its partition has, or lost. -/
theorem RoutedSession.sendNow_cases {s t : RoutedSession} {r : Record} (h : s.sendNow r = .routed t) :
    t = s ∨ ∃ i c, s.senders.get? r.place = some i ∧ s.claims[i]? = some c ∧
      t = s.setClaim i { c with claim := { c.claim with queue := c.claim.queue ++ [r] } } := by
  unfold sendNow at h
  split at h
  next =>
    cases h
    exact .inl rfl
  next i hi =>
    split at h
    next =>
      cases h
      exact .inl rfl
    next c hc =>
      unfold RoutedClaim.send at h
      split at h
      next hs =>
        cases h
        split at hs
        next => simp at hs
        next =>
          split at hs <;> cases hs
          exact .inr ⟨i, c, hi, hc, rfl⟩
      next =>
        split at h <;> cases h
        exact .inl rfl
      next =>
        cases h
        exact .inl rfl

/-- What happens in a session keeps its claims apart, as long as the loop alone forgets them. -/
theorem Respawned.step {p q : SessionPlay} {joined : List Nat} {e : SessionEvent} (h : Respawned p joined)
    (hs : p.step? e = some q) (hf : ∀ key, e ≠ .forget key) : Respawned q joined := by
  cases e with
  | claim key =>
    obtain ⟨ho, _, rfl⟩ := p.step_claim hs
    exact h.claim ho key
  | fetch r =>
    obtain ⟨ho, _, rfl⟩ := p.step_fetch hs
    exact (h.claim ho r.place).congr rfl rfl rfl
  | send r =>
    obtain ⟨_, _, t, ht, rfl⟩ := p.step_send hs
    obtain rfl | ⟨i, c, _, hc, rfl⟩ := RoutedSession.sendNow_cases ht
    · exact h.congr rfl rfl rfl
    · exact h.edit hc rfl rfl id rfl rfl
  | giveUp r =>
    obtain ⟨_, rfl⟩ := p.step_giveUp hs
    exact h.congr rfl rfl rfl
  | ask i =>
    obtain ⟨c, point, hc, _, _, rfl, _⟩ := p.step_ask hs
    exact h.edit hc rfl rfl id rfl rfl
  | take i r =>
    obtain ⟨c, rest, hc, _, _, _, rfl⟩ := p.step_take hs
    exact h.edit hc rfl rfl id rfl rfl
  | abandon i =>
    obtain ⟨c, hc, _, rfl⟩ := p.step_abandon hs
    exact h.edit hc rfl rfl id rfl rfl
  | finish i result =>
    obtain ⟨c, hc, _, rfl⟩ := p.step_finish hs
    exact h.edit hc rfl rfl (by simp) rfl rfl
  | cancel =>
    cases Option.some.inj hs
    exact h.congr rfl rfl rfl
  | forget key => exact absurd rfl (hf key)
  | stop =>
    obtain ⟨_, _, rfl⟩ := p.step_stop hs
    exact h.stop

end TopicConsumer
