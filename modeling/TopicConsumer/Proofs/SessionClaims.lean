import TopicConsumer.Proofs.SessionHistory

namespace TopicConsumer

theorem nextOffset_ok {offset next : Int} (h : nextOffset offset = .ok next) : next = offset + 1 := by
  unfold nextOffset at h
  split at h
  next => exact (Except.ok.inj h).symm
  next => simp at h

theorem RoutedClaim.ask_ok {claim after : RoutedClaim} {point moved : ResumePoint}
    (h : claim.ask point = .ok (after, moved)) :
    after = { claim with taken := none } ∧
      ((claim.taken = none ∧ moved = point) ∨ ∃ o, claim.taken = some o ∧ moved = ⟨o + 1⟩) := by
  unfold RoutedClaim.ask at h
  split at h
  next ht =>
    obtain ⟨rfl, rfl⟩ := Prod.mk.inj (Except.ok.inj h)
    exact ⟨by rw [← ht], Or.inl ⟨ht, rfl⟩⟩
  next o ht =>
    split at h
    next next hn =>
      obtain ⟨rfl, rfl⟩ := Prod.mk.inj (Except.ok.inj h)
      exact ⟨rfl, Or.inr ⟨o, ht, by rw [nextOffset_ok hn]⟩⟩
    next => simp at h

namespace RoutedSession

def keys (s : RoutedSession) : List PartitionKey := s.claims.map (·.claim.key)

theorem keys_getElem? {s : RoutedSession} {i : Nat} {c : HandledClaim} (h : s.claims[i]? = some c) :
    s.keys[i]? = some c.claim.key := by simp [keys, h]

theorem keys_setClaim {s : RoutedSession} {i : Nat} {c d : HandledClaim} (h : s.claims[i]? = some c)
    (hk : d.claim.key = c.claim.key) : (s.setClaim i d).keys = s.keys := by
  have hki : (s.claims.map (·.claim.key))[i]? = some c.claim.key := keys_getElem? h
  obtain ⟨_, hkey⟩ := List.getElem?_eq_some_iff.mp hki
  simp only [keys, setClaim, List.map_set, hk]
  rw [← hkey, List.set_getElem_self]

theorem keys_prefix_setClaim {s : RoutedSession} {i : Nat} {c d : HandledClaim}
    (h : s.claims[i]? = some c) (hk : d.claim.key = c.claim.key) : s.keys <+: (s.setClaim i d).keys :=
  keys_setClaim h hk ▸ List.prefix_rfl

theorem setClaim_getElem? {s : RoutedSession} {i j : Nat} {c d : HandledClaim}
    (h : (s.setClaim i d).claims[j]? = some c) : (j = i ∧ c = d) ∨ (j ≠ i ∧ s.claims[j]? = some c) := by
  rw [setClaim, List.getElem?_set] at h
  split at h
  next hi =>
    split at h
    next => exact Or.inl ⟨hi.symm, (Option.some.inj h).symm⟩
    next => simp at h
  next hi => exact Or.inr ⟨Ne.symm hi, h⟩

def setPoint (s : RoutedSession) (key : PartitionKey) (point : ResumePoint) : RoutedSession :=
  { s with resume := Table.set key point s.resume }

theorem resumePoint_setPoint (s : RoutedSession) (key k : PartitionKey) (point : ResumePoint) :
    (s.setPoint key point).resumePoint k = if k = key then point else s.resumePoint k := by
  simp only [resumePoint, setPoint, Table.get?_set]
  split <;> rfl

theorem claims_claim (s : RoutedSession) (key : PartitionKey) :
    (s.claim key).claims = if (s.senders.get? key).isSome then s.claims
      else s.claims ++ [{ claim := { key := key, capacity := claimBuffer } }] := by
  simp only [claim]
  split <;> rfl

theorem keys_claim (s : RoutedSession) (key : PartitionKey) :
    (s.claim key).keys = if (s.senders.get? key).isSome then s.keys else s.keys ++ [key] := by
  rw [keys, claims_claim]
  split <;> simp [keys]

theorem keys_prefix_claim (s : RoutedSession) (key : PartitionKey) : s.keys <+: (s.claim key).keys := by
  rw [keys_claim]
  split
  next => exact List.prefix_rfl
  next => exact List.prefix_append _ _

theorem claim_getElem? {s : RoutedSession} {key : PartitionKey} {i : Nat} {c : HandledClaim}
    (h : (s.claim key).claims[i]? = some c) :
    s.claims[i]? = some c ∨
      (s.senders.get? key = none ∧ c = { claim := { key := key, capacity := claimBuffer } }) := by
  rw [claims_claim] at h
  split at h
  next => exact Or.inl h
  next hs =>
    by_cases hi : i < s.claims.length
    · exact Or.inl (by rwa [List.getElem?_append_left hi] at h)
    · rw [List.getElem?_append_right (by omega)] at h
      obtain ⟨_, he⟩ := List.getElem?_eq_some_iff.mp h
      exact Or.inr ⟨by simpa using hs, by simpa using he.symm⟩

theorem senders_claim (s : RoutedSession) (key k : PartitionKey) :
    (s.claim key).senders.get? k =
      if (s.senders.get? key).isSome then s.senders.get? k
      else if k = key then some s.claims.length else s.senders.get? k := by
  simp only [claim]
  split
  next => rfl
  next => simp only [Table.get?_set]

theorem resumePoint_claim (s : RoutedSession) (key k : PartitionKey) :
    (s.claim key).resumePoint k = s.resumePoint k := by
  have hset := resumePoint_setPoint s key k (s.resumePoint key)
  have heq : (if k = key then s.resumePoint key else s.resumePoint k) = s.resumePoint k := by
    split
    next h => rw [h]
    next => rfl
  rw [heq] at hset
  simp only [claim]
  split <;> exact hset

theorem resumePoint_fetch (s : RoutedSession) (r : Record) (k : PartitionKey) :
    (s.fetch r).resumePoint k =
      if k = r.place then (s.resumePoint k).routed r.offset else s.resumePoint k := by
  have hset := resumePoint_setPoint (s.claim r.place) r.place k
    (((s.claim r.place).resumePoint r.place).routed r.offset)
  rw [resumePoint_claim, resumePoint_claim] at hset
  rw [fetch, noteFetched, resumePoint_claim]
  refine hset.trans ?_
  split
  next h => rw [h]
  next => rfl

/-- What a handler's question does to its claim, and to the resume point if it holds a record. -/
theorem ask_ok {s t : RoutedSession} {i : Nat} {c : HandledClaim} (hc : s.claims[i]? = some c)
    (h : s.ask i = .ok t) :
    ∃ point, t = (s.setClaim i
        { c with claim := { c.claim with taken := none }, asking := true }).setPoint c.claim.key point ∧
      ((c.claim.taken = none ∧ point = s.resumePoint c.claim.key) ∨
        ∃ o, c.claim.taken = some o ∧ point = ⟨o + 1⟩) := by
  simp only [ask, hc] at h
  split at h
  next => simp at h
  next claim point hq =>
    obtain ⟨rfl, hp⟩ := RoutedClaim.ask_ok hq
    exact ⟨point, (Except.ok.inj h).symm, hp⟩

theorem take_some {s t : RoutedSession} {i : Nat} {c : HandledClaim} {r : Record}
    (hc : s.claims[i]? = some c) (h : s.take i = some (r, t)) :
    ∃ rest, c.claim.queue = r :: rest ∧
      t = (s.setClaim i { c with
        claim := { c.claim with queue := rest, taken := some r.offset }
        asking := false }).setPoint c.claim.key ⟨r.offset⟩ := by
  simp only [take, hc, RoutedClaim.receive] at h
  cases hq : c.claim.queue with
  | nil =>
    rw [hq] at h
    dsimp only at h
    split at h
    next hr => split at hr <;> simp at hr
    next => simp at h
    next => simp at h
  | cons x rest =>
    rw [hq] at h
    simp only [Option.some.injEq, Prod.mk.injEq] at h
    obtain ⟨rfl, rfl⟩ := h
    exact ⟨rest, rfl, rfl⟩

theorem resume_sendNow {s t : RoutedSession} {r : Record} (h : s.sendNow r = .routed t) :
    t.resume = s.resume := by
  unfold sendNow at h
  split at h
  next => cases h; rfl
  next =>
    split at h
    next => cases h; rfl
    next =>
      split at h
      next => cases h; rfl
      next => split at h <;> cases h; rfl
      next => cases h; rfl

theorem sendNow_routed {s t : RoutedSession} {r : Record} {i : Nat} {c : HandledClaim}
    (hi : s.senders.get? r.place = some i) (hc : s.claims[i]? = some c)
    (hf : s.isFull r = false) (h : s.sendNow r = .routed t) :
    (c.claim.held = true ∧
        t = s.setClaim i { c with claim := { c.claim with queue := c.claim.queue ++ [r] } }) ∨
      ((c.claim.held = false ∨ c.claim.fed = false) ∧ t = s) := by
  have hi' : s.senders.get? (r.topic, r.partition) = some i := hi
  simp only [isFull, hi, Option.bind_some, hc] at hf
  simp only [sendNow, hi', hc] at h
  cases hsend : c.claim.send r with
  | full => simp [hsend] at hf
  | closed =>
    simp only [hsend, Routing.routed.injEq] at h
    refine Or.inr ⟨?_, h.symm⟩
    unfold RoutedClaim.send at hsend
    split at hsend
    next hh => simpa using hh
    next => split at hsend <;> simp at hsend
  | sent claim =>
    simp only [hsend, Routing.routed.injEq] at h
    unfold RoutedClaim.send at hsend
    split at hsend
    next => simp at hsend
    next hh =>
      split at hsend
      next =>
        cases hsend
        simp only [Bool.or_eq_true, Bool.not_eq_true', not_or, Bool.not_eq_false] at hh
        exact Or.inl ⟨hh.1, h.symm⟩
      next => simp at hsend

end RoutedSession

/-- Every partition with a claim has one, to which its records are sent until the session is ended. -/
structure Wired (p : SessionPlay) : Prop where
  nodup : p.session.keys.Nodup
  found : ∀ key i, p.session.senders.get? key = some i → p.session.keys[i]? = some key
  sender : p.stopped = false → ∀ key ∈ p.session.keys, ∃ i, p.session.senders.get? key = some i
  fed : p.stopped = false → ∀ c ∈ p.session.claims, c.claim.fed = true
  routing : ∀ r, p.routing = some r → p.stopped = false ∧ r.place ∈ p.session.keys

namespace Wired

variable {p q : SessionPlay}

/-- Claims may change as long as each keeps its partition and goes on being fed. -/
theorem keep (h : Wired p) (hk : q.session.keys = p.session.keys)
    (hf : p.stopped = false → ∀ c ∈ q.session.claims, c.claim.fed = true)
    (hs : q.session.senders = p.session.senders) (hst : q.stopped = p.stopped)
    (hr : ∀ r, q.routing = some r → p.routing = some r) : Wired q := by
  refine ⟨hk ▸ h.nodup, ?_, ?_, fun ho => hf (hst ▸ ho), ?_⟩
  · rw [hk, hs]
    exact h.found
  · rw [hk, hs, hst]
    exact h.sender
  · intro r hq
    rw [hk, hst]
    exact h.routing r (hr r hq)

theorem claim_of_sender (h : Wired p) {key : PartitionKey} {i : Nat}
    (hi : p.session.senders.get? key = some i) :
    ∃ c, p.session.claims[i]? = some c ∧ c.claim.key = key := by
  have hk := h.found key i hi
  rw [RoutedSession.keys, List.getElem?_map] at hk
  exact Option.map_eq_some_iff.mp hk

theorem key_injective (h : Wired p) {i j : Nat} {c d : HandledClaim}
    (hc : p.session.claims[i]? = some c) (hd : p.session.claims[j]? = some d)
    (hk : c.claim.key = d.claim.key) : i = j := by
  have hi := RoutedSession.keys_getElem? hc
  have hj := RoutedSession.keys_getElem? hd
  exact (List.getElem?_inj (List.getElem?_eq_some_iff.mp hi).1 h.nodup).mp (by rw [hi, hj, hk])

theorem fed_set (h : Wired p) {i : Nat} {c d : HandledClaim} (hc : p.session.claims[i]? = some c)
    (hf : d.claim.fed = c.claim.fed) (ho : p.stopped = false) :
    ∀ x ∈ p.session.claims.set i d, x.claim.fed = true := by
  intro x hx
  rcases List.mem_or_eq_of_mem_set hx with hx | rfl
  · exact h.fed ho x hx
  · exact hf ▸ h.fed ho c (List.mem_of_getElem? hc)

theorem edit (h : Wired p) {i : Nat} {c d : HandledClaim} (hc : p.session.claims[i]? = some c)
    (hd : q.session.claims = p.session.claims.set i d)
    (hk : d.claim.key = c.claim.key) (hf : d.claim.fed = c.claim.fed)
    (hs : q.session.senders = p.session.senders) (hst : q.stopped = p.stopped)
    (hr : ∀ r, q.routing = some r → p.routing = some r) : Wired q := by
  refine h.keep ?_ ?_ hs hst hr
  · rw [← RoutedSession.keys_setClaim hc hk, RoutedSession.keys, hd]
    rfl
  · intro ho
    rw [hd]
    exact h.fed_set hc hf ho

theorem fresh (h : Wired p) (ho : p.stopped = false) {key : PartitionKey}
    (hs : p.session.senders.get? key = none) : key ∉ p.session.keys := by
  intro hm
  obtain ⟨i, hi⟩ := h.sender ho key hm
  simp [hi] at hs

theorem claim (h : Wired p) (ho : p.stopped = false) (hr : p.routing = none) (key : PartitionKey) :
    Wired { p with session := p.session.claim key } := by
  cases hs : p.session.senders.get? key with
  | some i =>
    refine h.keep ?_ ?_ ?_ rfl fun _ hq => hq
    · simp [RoutedSession.keys, RoutedSession.claims_claim, hs]
    · simpa [RoutedSession.claims_claim, hs] using h.fed
    · simp [RoutedSession.claim, hs]
  | none =>
    have hkeys := RoutedSession.keys_claim p.session key
    have hclaims := RoutedSession.claims_claim p.session key
    have hsenders := RoutedSession.senders_claim p.session key
    simp only [hs, Option.isSome_none, Bool.false_eq_true, ↓reduceIte] at hkeys hclaims hsenders
    have hlen : p.session.keys.length = p.session.claims.length := List.length_map _
    refine ⟨?_, ?_, ?_, ?_, ?_⟩
    · rw [hkeys]
      refine List.nodup_append.mpr ⟨h.nodup, by simp, ?_⟩
      intro a ha b hb he
      rw [he, List.mem_singleton.mp hb] at ha
      exact h.fresh ho hs ha
    · intro k i hi
      rw [hkeys]
      rw [hsenders] at hi
      split at hi
      next hk =>
        cases Option.some.inj hi
        simp [← hlen, hk]
      next =>
        have hf := h.found k i hi
        rw [List.getElem?_append_left (List.getElem?_eq_some_iff.mp hf).1]
        exact hf
    · intro _ k hk
      rw [hsenders]
      split
      next => exact ⟨_, rfl⟩
      next hne =>
        rw [hkeys] at hk
        exact h.sender ho k ((List.mem_append.mp hk).resolve_right (by simpa using hne))
    · intro _ c hc
      rw [hclaims] at hc
      rcases List.mem_append.mp hc with hc | hc
      · exact h.fed ho c hc
      · rw [List.mem_singleton.mp hc]
    · intro r hq
      simp [hr] at hq

theorem mem_keys_claim (h : Wired p) (key : PartitionKey) : key ∈ (p.session.claim key).keys := by
  rw [RoutedSession.keys_claim]
  cases hs : p.session.senders.get? key with
  | none => simp
  | some i => simpa using List.mem_of_getElem? (h.found key i hs)

theorem fetch (h : Wired p) (ho : p.stopped = false) (hr : p.routing = none) (r : Record) :
    Wired { p with session := p.session.fetch r, routing := some r } := by
  have hc := h.claim ho hr r.place
  refine ⟨hc.nodup, hc.found, hc.sender, hc.fed, ?_⟩
  intro x hx
  cases Option.some.inj hx
  exact ⟨ho, h.mem_keys_claim _⟩

end Wired

namespace SessionPlay

variable {p q : SessionPlay}

theorem step_claim {key : PartitionKey} (h : p.step? (.claim key) = some q) :
    p.stopped = false ∧ p.routing = none ∧ q = { p with session := p.session.claim key } := by
  simp only [step?] at h
  split at h
  next => simp at h
  next hg =>
    have hidle : p.stopped = false ∧ p.routing = none := by simpa using hg
    exact ⟨hidle.1, hidle.2, (Option.some.inj h).symm⟩

theorem step_fetch {r : Record} (h : p.step? (.fetch r) = some q) :
    p.stopped = false ∧ p.routing = none ∧
      q = { p with session := p.session.fetch r, routing := some r } := by
  simp only [step?] at h
  split at h
  next => simp at h
  next hg =>
    have hidle : p.stopped = false ∧ p.routing = none := by simpa using hg
    exact ⟨hidle.1, hidle.2, (Option.some.inj h).symm⟩

theorem step_send {r : Record} (h : p.step? (.send r) = some q) :
    p.routing = some r ∧ p.session.isFull r = false ∧
      ∃ t, p.session.sendNow r = .routed t ∧ q = { p with session := t, routing := none } := by
  simp only [step?] at h
  split at h
  next hg =>
    split at h
    next t ht => exact ⟨hg.1, hg.2, t, ht, (Option.some.inj h).symm⟩
    next => simp at h
  next => simp at h

theorem step_giveUp {r : Record} (h : p.step? (.giveUp r) = some q) :
    p.routing = some r ∧ q = { p with routing := none } := by
  simp only [step?] at h
  split at h
  next hg => exact ⟨hg, (Option.some.inj h).symm⟩
  next => simp at h

theorem step_ask {i : Nat} (h : p.step? (.ask i) = some q) :
    ∃ c point, p.session.claims[i]? = some c ∧ c.result = none ∧ c.asking = false ∧
      q = { p with session := (p.session.setClaim i
        { c with claim := { c.claim with taken := none }, asking := true }).setPoint c.claim.key point } ∧
      ((c.claim.taken = none ∧ point = p.session.resumePoint c.claim.key) ∨
        ∃ o, c.claim.taken = some o ∧ point = ⟨o + 1⟩) := by
  simp only [step?] at h
  split at h
  next => simp at h
  next c hc =>
    split at h
    next => simp at h
    next hg =>
      split at h
      next t ht =>
        obtain ⟨point, rfl, hp⟩ := RoutedSession.ask_ok hc ht
        simp only [Bool.or_eq_true, not_or, Bool.not_eq_true, Option.isSome_eq_false_iff,
          Option.isNone_iff_eq_none] at hg
        exact ⟨c, point, hc, hg.1, hg.2, (Option.some.inj h).symm, hp⟩
      next => simp at h

theorem step_take {i : Nat} {r : Record} (h : p.step? (.take i r) = some q) :
    ∃ c rest, p.session.claims[i]? = some c ∧ c.result = none ∧ c.asking = true ∧
      c.claim.queue = r :: rest ∧
      q = { p with session := (p.session.setClaim i { c with
        claim := { c.claim with queue := rest, taken := some r.offset }
        asking := false }).setPoint c.claim.key ⟨r.offset⟩ } := by
  simp only [step?] at h
  split at h
  next => simp at h
  next c hc =>
    split at h
    next hg =>
      split at h
      next x t ht =>
        split at h
        next hx =>
          subst hx
          obtain ⟨rest, hq, rfl⟩ := RoutedSession.take_some hc ht
          simp only [Bool.and_eq_true, Option.isNone_iff_eq_none] at hg
          exact ⟨c, rest, hc, hg.1, hg.2, hq, (Option.some.inj h).symm⟩
        next => simp at h
      next => simp at h
    next => simp at h

theorem step_abandon {i : Nat} (h : p.step? (.abandon i) = some q) :
    ∃ c, p.session.claims[i]? = some c ∧ c.asking = true ∧
      q = { p with session := p.session.setClaim i { c with asking := false } } := by
  simp only [step?] at h
  split at h
  next => simp at h
  next c hc =>
    split at h
    next hg => exact ⟨c, hc, hg, by simpa [RoutedSession.abandon, hc] using h.symm⟩
    next => simp at h

theorem step_finish {i : Nat} {result : Except Failure Unit}
    (h : p.step? (.finish i result) = some q) :
    ∃ c, p.session.claims[i]? = some c ∧ c.result = none ∧
      q = { p with session := p.session.setClaim i { c with
        claim := { c.claim with held := false }, asking := false, result := some result } } := by
  simp only [step?] at h
  split at h
  next => simp at h
  next c hc =>
    split at h
    next => simp at h
    next hg =>
      exact ⟨c, hc, by simpa using hg, by simpa [RoutedSession.finishClaim, hc] using h.symm⟩

theorem step_forget {key : PartitionKey} (h : p.step? (.forget key) = some q) :
    p.stopped = false ∧ p.routing = none ∧ q = { p with session := p.session.forget key } := by
  simp only [step?] at h
  split at h
  next => simp at h
  next hg =>
    have hidle : p.stopped = false ∧ p.routing = none := by simpa using hg
    exact ⟨hidle.1, hidle.2, (Option.some.inj h).symm⟩

theorem step_stop (h : p.step? .stop = some q) :
    p.stopped = false ∧ p.routing = none ∧
      q = { p with session := p.session.stop, stopped := true } := by
  simp only [step?] at h
  split at h
  next => simp at h
  next hg =>
    have hidle : p.stopped = false ∧ p.routing = none := by simpa using hg
    exact ⟨hidle.1, hidle.2, (Option.some.inj h).symm⟩

end SessionPlay

theorem Wired.stop {p : SessionPlay} (h : Wired p) (hr : p.routing = none) :
    Wired { p with session := p.session.stop, stopped := true } := by
  refine ⟨?_, ?_, by simp, by simp, by simp [hr]⟩
  · simpa [RoutedSession.keys, RoutedSession.stop, Function.comp_def] using h.nodup
  · simp [RoutedSession.stop, Table.get?]

theorem wired_new (cancelled : Bool) (marks : Watermarks) :
    Wired { session := RoutedSession.new cancelled marks } := by
  constructor <;> simp [RoutedSession.new, RoutedSession.keys, Table.get?]

/-- As long as no claim is forgotten, every event keeps the claims of a session apart. -/
theorem Wired.step {p q : SessionPlay} {e : SessionEvent} (h : Wired p) (hs : p.step? e = some q)
    (hf : ∀ key, e ≠ .forget key) : Wired q := by
  cases e with
  | claim key =>
    obtain ⟨ho, hr, rfl⟩ := p.step_claim hs
    exact h.claim ho hr key
  | fetch r =>
    obtain ⟨ho, hr, rfl⟩ := p.step_fetch hs
    exact h.fetch ho hr r
  | send r =>
    obtain ⟨hr, hfull, t, ht, rfl⟩ := p.step_send hs
    obtain ⟨ho, hm⟩ := h.routing r hr
    obtain ⟨i, hi⟩ := h.sender ho _ hm
    obtain ⟨c, hc, _⟩ := h.claim_of_sender hi
    obtain ⟨_, rfl⟩ | ⟨_, rfl⟩ := RoutedSession.sendNow_routed hi hc hfull ht
    · exact h.edit hc rfl rfl rfl rfl rfl (by simp)
    · exact h.keep rfl h.fed rfl rfl (by simp)
  | giveUp r =>
    obtain ⟨_, rfl⟩ := p.step_giveUp hs
    exact h.keep rfl h.fed rfl rfl (by simp)
  | ask i =>
    obtain ⟨c, point, hc, _, _, rfl, _⟩ := p.step_ask hs
    exact h.edit hc rfl rfl rfl rfl rfl fun _ hq => hq
  | take i r =>
    obtain ⟨c, rest, hc, _, _, _, rfl⟩ := p.step_take hs
    exact h.edit hc rfl rfl rfl rfl rfl fun _ hq => hq
  | abandon i =>
    obtain ⟨c, hc, _, rfl⟩ := p.step_abandon hs
    exact h.edit hc rfl rfl rfl rfl rfl fun _ hq => hq
  | finish i result =>
    obtain ⟨c, hc, _, rfl⟩ := p.step_finish hs
    exact h.edit hc rfl rfl rfl rfl rfl fun _ hq => hq
  | cancel =>
    cases Option.some.inj hs
    exact h.keep rfl h.fed rfl rfl fun _ hq => hq
  | forget key => exact absurd rfl (hf key)
  | stop =>
    obtain ⟨_, hr, rfl⟩ := p.step_stop hs
    exact h.stop hr

end TopicConsumer
