import TopicConsumer.Proofs.SessionClaims

namespace TopicConsumer

def takenBy (events : List SessionEvent) (i : Nat) : List Record :=
  events.filterMap fun e => match e with
    | .take j r => if j = i then some r else none
    | _ => none

/-- The records of a partition whose routes went through. -/
def sentTo (events : List SessionEvent) (key : PartitionKey) : List Record :=
  events.filterMap fun e => match e with
    | .send r => if r.place = key then some r else none
    | _ => none

def abandonedTo (events : List SessionEvent) (key : PartitionKey) : List Record :=
  events.filterMap fun e => match e with
    | .giveUp r => if r.place = key then some r else none
    | _ => none

def SessionPlay.pendingTo (p : SessionPlay) (key : PartitionKey) : List Record :=
  p.routing.toList.filter (·.place = key)

def SessionEvent.Names (key : PartitionKey) : SessionEvent → Prop
  | .claim k => k = key
  | .fetch r => r.place = key
  | _ => False

/-- Each record routed to a partition went through, or waits to be sent, or its route was abandoned; and
those of the first two kinds are in the order of their routes. -/
def RoutesKept (events : List SessionEvent) (p : SessionPlay) (key : PartitionKey) : Prop :=
  (sentTo events key ++ p.pendingTo key).Sublist (routedTo events key) ∧
    (sentTo events key ++ p.pendingTo key ++ abandonedTo events key).Perm (routedTo events key)

/-- Each partition has one handler, which gets the records of its partition in the order of their routes. -/
structure FedInOrder (events : List SessionEvent) (p : SessionPlay) : Prop where
  once : p.session.keys.Nodup
  named : ∀ key, key ∈ p.session.keys ↔ ∃ e ∈ events, e.Names key
  routes : ∀ key, RoutesKept events p key
  taken : ∀ (i : Nat) (c : HandledClaim), p.session.claims[i]? = some c →
    takenBy events i ++ c.claim.queue <+: sentTo events c.claim.key
  /-- A handler that has not returned loses nothing. -/
  queued : ∀ (i : Nat) (c : HandledClaim), p.session.claims[i]? = some c → c.result = none →
    takenBy events i ++ c.claim.queue = sentTo events c.claim.key
  /-- A route goes through unless its handler has a full queue, and then as soon as that takes a record. -/
  waits : ∀ r, p.routing = some r → (∃ q, p.step? (.send r) = some q) ∨
    ∃ (i : Nat) (c : HandledClaim), p.session.claims[i]? = some c ∧ c.claim.key = r.place ∧
      c.result = none ∧ c.claim.queue.length = claimBuffer ∧
      ∀ x q, p.step? (.take i x) = some q → ∃ last, q.step? (.send r) = some last
  /-- Once the end of the session has returned no handler is at work. -/
  finished : ∀ points, p.finished? = some points → (∀ c ∈ p.session.claims, c.result ≠ none) ∧
    ∀ e q, p.step? e = some q → e = .cancel

private theorem append_swap {β : Type} (xs ys zs : List β) : (xs ++ ys ++ zs).Perm (xs ++ zs ++ ys) := by
  rw [List.append_assoc, List.append_assoc]
  exact List.perm_append_comm.append_left xs

section Histories

variable {events : List SessionEvent} {e : SessionEvent}

theorem takenBy_take (events : List SessionEvent) (i j : Nat) (r : Record) :
    takenBy (events ++ [.take i r]) j = takenBy events j ++ if i = j then [r] else [] := by
  by_cases h : i = j <;> simp [takenBy, h]

theorem takenBy_other (he : ∀ i r, e ≠ .take i r) (i : Nat) :
    takenBy (events ++ [e]) i = takenBy events i := by
  cases e <;> simp [takenBy] at he ⊢

theorem sentTo_send (events : List SessionEvent) (r : Record) (key : PartitionKey) :
    sentTo (events ++ [.send r]) key = sentTo events key ++ if r.place = key then [r] else [] := by
  by_cases h : r.place = key <;> simp [sentTo, h]

theorem sentTo_other (he : ∀ r, e ≠ .send r) (key : PartitionKey) :
    sentTo (events ++ [e]) key = sentTo events key := by
  cases e <;> simp [sentTo] at he ⊢

theorem abandonedTo_giveUp (events : List SessionEvent) (r : Record) (key : PartitionKey) :
    abandonedTo (events ++ [.giveUp r]) key =
      abandonedTo events key ++ if r.place = key then [r] else [] := by
  by_cases h : r.place = key <;> simp [abandonedTo, h]

theorem abandonedTo_other (he : ∀ r, e ≠ .giveUp r) (key : PartitionKey) :
    abandonedTo (events ++ [e]) key = abandonedTo events key := by
  cases e <;> simp [abandonedTo] at he ⊢

end Histories

namespace RoutedSession

variable {s : RoutedSession} {r : Record} {i : Nat} {c : HandledClaim}

/-- What a full queue means for the partition of a record. -/
theorem isFull_iff (hi : s.senders.get? r.place = some i) (hc : s.claims[i]? = some c) :
    s.isFull r = true ↔
      c.claim.held = true ∧ c.claim.fed = true ∧ c.claim.capacity ≤ c.claim.queue.length := by
  simp only [isFull, hi, Option.bind_some, hc, RoutedClaim.send]
  by_cases hh : c.claim.held = true <;> by_cases hf : c.claim.fed = true <;>
    by_cases hl : c.claim.queue.length < c.claim.capacity <;> simp [hh, hf, hl]
  omega

theorem sendNow_of_not_full (hf : s.isFull r = false) : ∃ t, s.sendNow r = .routed t := by
  unfold isFull at hf
  unfold sendNow
  cases hi : s.senders.get? r.place with
  | none =>
    have hi' : s.senders.get? (r.topic, r.partition) = none := hi
    simp [hi']
  | some i =>
    have hi' : s.senders.get? (r.topic, r.partition) = some i := hi
    cases hc : s.claims[i]? with
    | none => simp [hi', hc]
    | some c =>
      simp only [hi, Option.bind_some, hc] at hf
      simp only [hi', hc]
      cases hs : c.claim.send r with
      | full => simp [hs] at hf
      | sent claim => exact ⟨_, rfl⟩
      | closed => exact ⟨_, rfl⟩

end RoutedSession

theorem SessionPlay.send_of_not_full {p : SessionPlay} {r : Record} (hr : p.routing = some r)
    (hf : p.session.isFull r = false) : ∃ q, p.step? (.send r) = some q := by
  obtain ⟨t, ht⟩ := RoutedSession.sendNow_of_not_full hf
  exact ⟨{ p with session := t, routing := none }, by simp [step?, hr, hf, ht]⟩

/-- The records that went through to a partition were taken by its handler or are queued for it, in this
order; what came after the handler returned is lost. -/
structure QueueTrace (events : List SessionEvent) (i : Nat) (c : HandledClaim) : Prop where
  line : takenBy events i ++ c.claim.queue <+: sentTo events c.claim.key
  whole : c.result = none → takenBy events i ++ c.claim.queue = sentTo events c.claim.key
  held : c.claim.held = c.result.isNone
  idle : c.result.isSome = true → c.asking = false
  capacity : c.claim.capacity = claimBuffer
  room : c.claim.queue.length ≤ claimBuffer

namespace QueueTrace

variable {events : List SessionEvent} {e : SessionEvent} {i : Nat} {c d : HandledClaim}

theorem quiet (h : QueueTrace events i c) (hs : sentTo (events ++ [e]) c.claim.key = sentTo events c.claim.key)
    (ht : takenBy (events ++ [e]) i = takenBy events i) (hk : d.claim.key = c.claim.key)
    (hq : d.claim.queue = c.claim.queue) (hc : d.claim.capacity = c.claim.capacity)
    (hr : d.result = none → c.result = none) (hh : d.claim.held = d.result.isNone)
    (ha : d.result.isSome = true → d.asking = false) : QueueTrace (events ++ [e]) i d := by
  refine ⟨?_, fun hd => ?_, hh, ha, hc.trans h.capacity, hq ▸ h.room⟩
  · rw [ht, hq, hk, hs]
    exact h.line
  · rw [ht, hq, hk, hs]
    exact h.whole (hr hd)

theorem same (h : QueueTrace events i c) (hs : sentTo (events ++ [e]) c.claim.key = sentTo events c.claim.key)
    (ht : takenBy (events ++ [e]) i = takenBy events i) : QueueTrace (events ++ [e]) i c :=
  h.quiet hs ht rfl rfl rfl id h.held h.idle

/-- A record that went through is the last of the queue. -/
theorem send {r : Record} (h : QueueTrace events i c) (hk : c.claim.key = r.place)
    (hh : c.claim.held = true) (hl : c.claim.queue.length < c.claim.capacity) :
    QueueTrace (events ++ [.send r]) i
      { c with claim := { c.claim with queue := c.claim.queue ++ [r] } } := by
  have hresult : c.result = none := by simpa [hh] using h.held
  have hnew : takenBy (events ++ [.send r]) i ++ (c.claim.queue ++ [r]) =
      sentTo (events ++ [.send r]) c.claim.key := by
    rw [takenBy_other (by simp), sentTo_send, if_pos hk.symm, ← List.append_assoc, h.whole hresult]
  refine ⟨hnew ▸ List.prefix_rfl, fun _ => hnew, h.held, h.idle, h.capacity, ?_⟩
  have hcapacity := h.capacity
  simp only [List.length_append, List.length_singleton]
  omega

/-- A handler that has returned misses what goes through to its partition. -/
theorem miss {r : Record} (h : QueueTrace events i c) (hh : c.claim.held = false) :
    QueueTrace (events ++ [.send r]) i c := by
  have hresult : c.result ≠ none := by
    intro hn
    have hheld := h.held
    simp [hh, hn] at hheld
  refine ⟨?_, fun hn => absurd hn hresult, h.held, h.idle, h.capacity, h.room⟩
  rw [takenBy_other (by simp), sentTo_send]
  exact h.line.trans (List.prefix_append _ _)

theorem take {r : Record} {rest : List Record} (h : QueueTrace events i c) (hr : c.result = none)
    (hq : c.claim.queue = r :: rest) :
    QueueTrace (events ++ [.take i r]) i
      { c with claim := { c.claim with queue := rest, taken := some r.offset }, asking := false } := by
  have hnew : takenBy (events ++ [.take i r]) i ++ rest = sentTo (events ++ [.take i r]) c.claim.key := by
    rw [takenBy_take, if_pos rfl, sentTo_other (by simp), ← h.whole hr, hq, List.append_assoc,
      List.singleton_append]
  refine ⟨hnew ▸ List.prefix_rfl, fun _ => hnew, h.held, fun _ => rfl, h.capacity, ?_⟩
  have hroom := h.room
  rw [hq, List.length_cons] at hroom
  dsimp only
  omega

theorem new {key : PartitionKey} (ht : takenBy events i = []) (hs : sentTo events key = []) :
    QueueTrace events i { claim := { key := key, capacity := claimBuffer } } := by
  constructor <;> simp [ht, hs, claimBuffer]

end QueueTrace

structure Fed (events : List SessionEvent) (p : SessionPlay) : Prop where
  wired : Wired p
  named : ∀ key, key ∈ p.session.keys ↔ ∃ e ∈ events, e.Names key
  routes : ∀ key, RoutesKept events p key
  untaken : ∀ i, p.session.claims.length ≤ i → takenBy events i = []
  queues : ∀ (i : Nat) (c : HandledClaim), p.session.claims[i]? = some c → QueueTrace events i c

/-- Events that no claim and no route is concerned by. -/
def SessionEvent.IsAside (e : SessionEvent) : Prop :=
  (∀ key, ¬e.Names key) ∧ (∀ r, e ≠ .send r) ∧ (∀ r, e ≠ .giveUp r) ∧ ∀ i r, e ≠ .take i r

namespace Fed

variable {events : List SessionEvent} {e : SessionEvent} {p q : SessionPlay} {i : Nat}

theorem unsent (h : Fed events p) {key : PartitionKey} (hn : key ∉ p.session.keys) :
    sentTo events key = [] := by
  by_contra hne
  obtain ⟨r, hr⟩ := List.exists_mem_of_ne_nil _ hne
  have hrouted := (h.routes key).1.subset (List.mem_append_left _ hr)
  obtain ⟨hf, hk⟩ := mem_routedTo.mp hrouted
  exact hn ((h.named key).mpr ⟨_, hf, hk⟩)

theorem named_concat (h : Fed events p) (key : PartitionKey) :
    (∃ x ∈ events ++ [e], x.Names key) ↔ key ∈ p.session.keys ∨ e.Names key := by
  rw [h.named key]
  constructor
  · rintro ⟨x, hx, hn⟩
    rcases List.mem_append.mp hx with hx | hx
    · exact .inl ⟨x, hx, hn⟩
    · exact .inr (List.mem_singleton.mp hx ▸ hn)
  · rintro (⟨x, hx, hn⟩ | hn)
    · exact ⟨x, List.mem_append_left _ hx, hn⟩
    · exact ⟨e, by simp, hn⟩

theorem routes_other (h : Fed events p) (hf : ∀ r, e ≠ .fetch r) (hs : ∀ r, e ≠ .send r)
    (hg : ∀ r, e ≠ .giveUp r) (hr : q.routing = p.routing) (key : PartitionKey) :
    RoutesKept (events ++ [e]) q key := by
  have hp : q.pendingTo key = p.pendingTo key := by rw [SessionPlay.pendingTo, hr, SessionPlay.pendingTo]
  rw [RoutesKept, routedTo_other hf, sentTo_other hs, abandonedTo_other hg, hp]
  exact h.routes key

theorem keep (h : Fed events p) (hn : ∀ key, ¬e.Names key) (hw : Wired q)
    (hk : q.session.keys = p.session.keys)
    (hroutes : ∀ key, RoutesKept (events ++ [e]) q key)
    (ht : ∀ i, p.session.claims.length ≤ i → takenBy (events ++ [e]) i = [])
    (hq : ∀ (j : Nat) (d : HandledClaim), q.session.claims[j]? = some d → QueueTrace (events ++ [e]) j d) :
    Fed (events ++ [e]) q := by
  have hlength : q.session.claims.length = p.session.claims.length := by
    simpa [RoutedSession.keys] using congrArg List.length hk
  refine ⟨hw, fun key => ?_, hroutes, fun j hj => ht j (hlength ▸ hj), hq⟩
  rw [h.named_concat, hk]
  exact ⟨.inl, fun hm => hm.resolve_right (hn key)⟩

theorem untaken_other (h : Fed events p) (ht : ∀ i r, e ≠ .take i r) (j : Nat)
    (hj : p.session.claims.length ≤ j) : takenBy (events ++ [e]) j = [] :=
  (takenBy_other ht j).trans (h.untaken j hj)

theorem aside (h : Fed events p) (he : e.IsAside) (hw : Wired q) (hk : q.session.keys = p.session.keys)
    (hr : q.routing = p.routing)
    (hq : ∀ (j : Nat) (d : HandledClaim), q.session.claims[j]? = some d → QueueTrace (events ++ [e]) j d) :
    Fed (events ++ [e]) q := by
  obtain ⟨hn, hs, hg, ht⟩ := he
  have hf : ∀ r, e ≠ .fetch r := fun r hr => hn r.place (by rw [hr]; rfl)
  exact h.keep hn hw hk (h.routes_other hf hs hg hr) (h.untaken_other ht) hq

theorem edit (h : Fed events p) (he : e.IsAside) (hw : Wired q) {c d : HandledClaim}
    (hc : p.session.claims[i]? = some c) (hd : q.session.claims = p.session.claims.set i d)
    (hr : q.routing = p.routing) (hk : d.claim.key = c.claim.key) (hqueue : d.claim.queue = c.claim.queue)
    (hcap : d.claim.capacity = c.claim.capacity) (hres : d.result = none → c.result = none)
    (hheld : d.claim.held = d.result.isNone) (hask : d.result.isSome = true → d.asking = false) :
    Fed (events ++ [e]) q := by
  have hkeys : q.session.keys = p.session.keys := by
    rw [← RoutedSession.keys_setClaim hc hk, RoutedSession.keys, hd]
    rfl
  refine h.aside he hw hkeys hr fun j x hx => ?_
  rw [hd] at hx
  have hs : ∀ key, sentTo (events ++ [e]) key = sentTo events key := sentTo_other he.2.1
  have ht : ∀ j, takenBy (events ++ [e]) j = takenBy events j := takenBy_other he.2.2.2
  rcases RoutedSession.setClaim_getElem? (s := p.session) hx with ⟨rfl, rfl⟩ | ⟨_, hx⟩
  · exact (h.queues j c hc).quiet (hs _) (ht _) hk hqueue hcap hres hheld hask
  · exact (h.queues j x hx).same (hs _) (ht _)

theorem name (h : Fed events p) (hopen : p.stopped = false) {key : PartitionKey}
    (hn : ∀ k, e.Names k ↔ k = key) (hs : ∀ r, e ≠ .send r) (ht : ∀ i r, e ≠ .take i r) (hw : Wired q)
    (hc : q.session.claims = (p.session.claim key).claims)
    (hroutes : ∀ k, RoutesKept (events ++ [e]) q k) :
    Fed (events ++ [e]) q := by
  have hkeys : q.session.keys = (p.session.claim key).keys := by rw [RoutedSession.keys, hc]; rfl
  refine ⟨hw, fun k => ?_, hroutes, fun j hj => ?_, fun j c hj => ?_⟩
  · rw [h.named_concat, hkeys, hn]
    constructor
    · intro hm
      rw [RoutedSession.keys_claim] at hm
      split at hm
      next => exact .inl hm
      next => simpa using hm
    · rintro (hm | rfl)
      · exact (RoutedSession.keys_prefix_claim p.session key).subset hm
      · exact h.wired.mem_keys_claim k
  · rw [takenBy_other ht]
    refine h.untaken j (Nat.le_trans ?_ hj)
    have := (RoutedSession.keys_prefix_claim p.session key).length_le
    rw [← hkeys] at this
    simpa [RoutedSession.keys] using this
  · rw [hc] at hj
    rw [RoutedSession.claims_claim] at hj
    split at hj
    next => exact (h.queues j c hj).same (sentTo_other hs _) (takenBy_other ht _)
    next hnone =>
      rcases Nat.lt_or_ge j p.session.claims.length with hb | hb
      · rw [List.getElem?_append_left hb] at hj
        exact (h.queues j c hj).same (sentTo_other hs _) (takenBy_other ht _)
      · rw [List.getElem?_append_right hb, List.getElem?_singleton] at hj
        split at hj <;> cases hj
        have hfresh := h.wired.fresh hopen (show p.session.senders.get? key = none by simpa using hnone)
        refine QueueTrace.new ?_ ?_
        · rw [takenBy_other ht]
          exact h.untaken j hb
        · rw [sentTo_other hs]
          exact h.unsent hfresh

theorem fetch (h : Fed events p) {r : Record} (hs : p.step? (.fetch r) = some q) :
    Fed (events ++ [.fetch r]) q := by
  have hw := h.wired.step hs (by simp)
  obtain ⟨hopen, hr, rfl⟩ := p.step_fetch hs
  refine h.name hopen (fun k => eq_comm) (by simp) (by simp) hw rfl fun k => ?_
  obtain ⟨hsub, hperm⟩ := h.routes k
  simp only [SessionPlay.pendingTo, hr, Option.toList_none, List.filter_nil, List.append_nil] at hsub hperm
  rw [RoutesKept, routedTo_fetch, sentTo_other (by simp), abandonedTo_other (by simp)]
  by_cases hk : r.place = k
  · simp only [SessionPlay.pendingTo, Option.toList_some, List.filter_cons, hk, decide_true, if_true,
      List.filter_nil]
    refine ⟨hsub.append (List.Sublist.refl _), ?_⟩
    exact (append_swap _ _ _).trans (hperm.append_right [r])
  · simpa [SessionPlay.pendingTo, hk] using ⟨hsub, hperm⟩

theorem send (h : Fed events p) {r : Record} (hs : p.step? (.send r) = some q) :
    Fed (events ++ [.send r]) q := by
  have hw := h.wired.step hs (by simp)
  obtain ⟨hr, hfull, t, ht, rfl⟩ := p.step_send hs
  obtain ⟨hopen, hm⟩ := h.wired.routing r hr
  obtain ⟨i, hi⟩ := h.wired.sender hopen _ hm
  obtain ⟨c, hc, hk⟩ := h.wired.claim_of_sender hi
  have hfed := h.wired.fed hopen c (List.mem_of_getElem? hc)
  have hroutes : ∀ k, RoutesKept (events ++ [.send r]) { p with session := t, routing := none } k := by
    intro k
    have hroutes := h.routes k
    rw [RoutesKept, routedTo_other (by simp), sentTo_send, abandonedTo_other (by simp)]
    by_cases hp : r.place = k <;> simpa [RoutesKept, SessionPlay.pendingTo, hr, hp] using hroutes
  have huntaken := h.untaken_other (e := .send r) (by simp)
  -- No other claim is concerned by the route.
  have hother : ∀ (j : Nat) (d : HandledClaim), j ≠ i → p.session.claims[j]? = some d →
      QueueTrace (events ++ [.send r]) j d := by
    intro j d hj hd
    have hne : r.place ≠ d.claim.key := fun hp => hj (h.wired.key_injective hd hc (by rw [hk, hp]))
    exact (h.queues j d hd).same (by simp [sentTo_send, hne]) (takenBy_other (by simp) j)
  obtain ⟨hheld, rfl⟩ | ⟨hclosed, rfl⟩ := RoutedSession.sendNow_routed hi hc hfull ht
  · have hroom : c.claim.queue.length < c.claim.capacity := by
      by_contra hn
      rw [(RoutedSession.isFull_iff hi hc).mpr ⟨hheld, hfed, by omega⟩] at hfull
      simp at hfull
    refine h.keep (fun _ hn => hn) hw (RoutedSession.keys_setClaim hc rfl) hroutes huntaken fun j d hd => ?_
    rcases RoutedSession.setClaim_getElem? hd with ⟨rfl, rfl⟩ | ⟨hj, hd⟩
    · exact (h.queues j c hc).send hk hheld hroom
    · exact hother j d hj hd
  · refine h.keep (fun _ hn => hn) hw rfl hroutes huntaken fun j d hd => ?_
    by_cases hj : j = i
    · subst hj
      cases Option.some.inj (hc.symm.trans hd)
      exact (h.queues j c hc).miss (hclosed.resolve_right (by simp [hfed]))
    · exact hother j d hj hd

theorem giveUp (h : Fed events p) {r : Record} (hs : p.step? (.giveUp r) = some q) :
    Fed (events ++ [.giveUp r]) q := by
  have hw := h.wired.step hs (by simp)
  obtain ⟨hr, rfl⟩ := p.step_giveUp hs
  refine h.keep (fun _ hn => hn) hw rfl (fun k => ?_) (h.untaken_other (by simp)) fun j d hd => ?_
  · have hroutes := h.routes k
    rw [RoutesKept, routedTo_other (by simp), sentTo_other (by simp), abandonedTo_giveUp]
    by_cases hp : r.place = k
    · simp only [RoutesKept, SessionPlay.pendingTo, hr, Option.toList_some, Option.toList_none, List.filter_cons, hp,
        decide_true, if_true, List.filter_nil, List.append_nil] at hroutes ⊢
      obtain ⟨hsub, hperm⟩ := hroutes
      refine ⟨(List.sublist_append_left _ _).trans hsub, List.Perm.trans ?_ hperm⟩
      rw [← List.append_assoc]
      exact append_swap _ _ _
    · simpa [RoutesKept, SessionPlay.pendingTo, hr, hp] using hroutes
  · exact (h.queues j d hd).same (sentTo_other (by simp) _) (takenBy_other (by simp) _)

theorem take (h : Fed events p) {r : Record} (hs : p.step? (.take i r) = some q) :
    Fed (events ++ [.take i r]) q := by
  have hw := h.wired.step hs (by simp)
  obtain ⟨c, rest, hc, hresult, _, hq, rfl⟩ := p.step_take hs
  have hi := (List.getElem?_eq_some_iff.mp hc).1
  refine h.keep (fun _ hn => hn) hw (RoutedSession.keys_setClaim hc rfl)
    (h.routes_other (by simp) (by simp) (by simp) rfl) (fun j hj => ?_) fun j d hd => ?_
  · rw [takenBy_take, if_neg (by omega), List.append_nil]
    exact h.untaken j hj
  · rcases RoutedSession.setClaim_getElem? hd with ⟨rfl, rfl⟩ | ⟨hj, hd⟩
    · exact (h.queues j c hc).take hresult hq
    · refine (h.queues j d hd).same (sentTo_other (by simp) _) ?_
      rw [takenBy_take, if_neg (Ne.symm hj), List.append_nil]

theorem step (h : Fed events p) (hs : p.step? e = some q) (hf : ∀ key, e ≠ .forget key) :
    Fed (events ++ [e]) q := by
  have hw := h.wired.step hs hf
  cases e with
  | claim key =>
    obtain ⟨hopen, hr, rfl⟩ := p.step_claim hs
    exact h.name hopen (fun k => eq_comm) (by simp) (by simp) hw rfl
      (h.routes_other (by simp) (by simp) (by simp) rfl)
  | fetch r => exact h.fetch hs
  | send r => exact h.send hs
  | giveUp r => exact h.giveUp hs
  | take i r => exact h.take hs
  | ask i =>
    obtain ⟨c, point, hc, hresult, _, rfl, _⟩ := p.step_ask hs
    have ht := h.queues i c hc
    exact h.edit (by simp [SessionEvent.IsAside, SessionEvent.Names]) hw hc rfl rfl rfl rfl rfl id ht.held
      (by simp [hresult])
  | abandon i =>
    obtain ⟨c, hc, _, rfl⟩ := p.step_abandon hs
    have ht := h.queues i c hc
    exact h.edit (by simp [SessionEvent.IsAside, SessionEvent.Names]) hw hc rfl rfl rfl rfl rfl id ht.held
      (by simp)
  | finish i result =>
    obtain ⟨c, hc, _, rfl⟩ := p.step_finish hs
    exact h.edit (by simp [SessionEvent.IsAside, SessionEvent.Names]) hw hc rfl rfl rfl rfl rfl (by simp)
      (by simp) (by simp)
  | cancel =>
    cases Option.some.inj hs
    refine h.aside (by simp [SessionEvent.IsAside, SessionEvent.Names]) hw rfl rfl fun j d hd => ?_
    exact (h.queues j d hd).same (sentTo_other (by simp) _) (takenBy_other (by simp) _)
  | forget key => exact absurd rfl (hf key)
  | stop =>
    obtain ⟨_, _, rfl⟩ := p.step_stop hs
    refine h.aside (by simp [SessionEvent.IsAside, SessionEvent.Names]) hw ?_ rfl fun j d hd => ?_
    · simp [RoutedSession.keys, RoutedSession.stop, Function.comp_def]
    · simp only [RoutedSession.stop, List.getElem?_map] at hd
      obtain ⟨c, hc, rfl⟩ := Option.map_eq_some_iff.mp hd
      have ht := h.queues j c hc
      exact ht.quiet (sentTo_other (by simp) _) (takenBy_other (by simp) _) rfl rfl rfl id ht.held ht.idle

end Fed

theorem fed_new (cancelled : Bool) (marks : Watermarks) :
    Fed [] { session := RoutedSession.new cancelled marks } := by
  refine ⟨wired_new cancelled marks, ?_, ?_, ?_, ?_⟩ <;>
    simp [RoutedSession.new, RoutedSession.keys, RoutesKept, sentTo, routedTo, abandonedTo, takenBy,
      SessionPlay.pendingTo]

theorem fed_of_run {first p : SessionPlay} {events : List SessionEvent} (hfirst : Fed [] first)
    (h : first.run events = some p) (hf : ∀ key, SessionEvent.forget key ∉ events) : Fed events p := by
  induction events using List.reverseRecOn generalizing p with
  | nil => exact Option.some.inj h ▸ hfirst
  | append_singleton events e ih =>
    rw [SessionPlay.run_concat] at h
    obtain ⟨before, hrun, hs⟩ := Option.bind_eq_some_iff.mp h
    have hb := ih hrun fun key hm => hf key (List.mem_append_left _ hm)
    exact hb.step hs fun key he => hf key (by simp [he])

namespace Fed

variable {events : List SessionEvent} {p : SessionPlay}

/-- A route waits for nothing but room in the queue of a handler that is at work. -/
theorem waits (h : Fed events p) {r : Record} (hr : p.routing = some r) :
    (∃ q, p.step? (.send r) = some q) ∨
      ∃ (i : Nat) (c : HandledClaim), p.session.claims[i]? = some c ∧ c.claim.key = r.place ∧
        c.result = none ∧ c.claim.queue.length = claimBuffer ∧
        ∀ x q, p.step? (.take i x) = some q → ∃ last, q.step? (.send r) = some last := by
  cases hfull : p.session.isFull r with
  | false => exact .inl (SessionPlay.send_of_not_full hr hfull)
  | true =>
    obtain ⟨hopen, hm⟩ := h.wired.routing r hr
    obtain ⟨i, hi⟩ := h.wired.sender hopen _ hm
    obtain ⟨c, hc, hk⟩ := h.wired.claim_of_sender hi
    have ht := h.queues i c hc
    obtain ⟨hheld, _, hlength⟩ := (RoutedSession.isFull_iff hi hc).mp hfull
    rw [ht.capacity] at hlength
    have hresult : c.result = none := by simpa [hheld] using ht.held
    refine .inr ⟨i, c, hc, hk, hresult, Nat.le_antisymm ht.room hlength, fun x q hx => ?_⟩
    obtain ⟨d, rest, hd, _, _, hqueue, hq⟩ := p.step_take hx
    cases Option.some.inj (hc.symm.trans hd)
    have hrouting : q.routing = some r := by rw [hq]; exact hr
    have hsender : q.session.senders.get? r.place = some i := by rw [hq]; exact hi
    have hlater : q.session.claims[i]? = some { c with
        claim := { c.claim with queue := rest, taken := some x.offset }, asking := false } := by
      rw [hq]
      exact List.getElem?_set_self (List.getElem?_eq_some_iff.mp hc).1
    refine SessionPlay.send_of_not_full hrouting ?_
    by_contra hn
    obtain ⟨_, _, hover⟩ := (RoutedSession.isFull_iff hsender hlater).mp (by simpa using hn)
    have hroom := ht.room
    rw [hqueue, List.length_cons] at hroom
    dsimp only at hover
    rw [ht.capacity] at hover
    omega

theorem finished (h : Fed events p) {points : List (PartitionKey × Int)}
    (hp : p.finished? = some points) :
    (∀ c ∈ p.session.claims, c.result ≠ none) ∧ ∀ e q, p.step? e = some q → e = .cancel := by
  unfold SessionPlay.finished? at hp
  split at hp
  next hdone =>
    obtain ⟨hstopped, hreturned⟩ := by simpa using hdone
    have hrouting : p.routing = none := by
      cases hr : p.routing with
      | none => rfl
      | some r => simpa [hstopped] using (h.wired.routing r hr).1
    have hall : ∀ c ∈ p.session.claims, c.result ≠ none := fun c hc =>
      Option.isSome_iff_ne_none.mp (hreturned c hc)
    have hresult : ∀ (i : Nat) (c : HandledClaim), p.session.claims[i]? = some c → c.result ≠ none :=
      fun i c hc => hall c (List.mem_of_getElem? hc)
    refine ⟨hall, fun e q hs => ?_⟩
    cases e with
    | cancel => rfl
    | claim key =>
      obtain ⟨hopen, _, _⟩ := p.step_claim hs
      simp [hopen] at hstopped
    | fetch r =>
      obtain ⟨hopen, _, _⟩ := p.step_fetch hs
      simp [hopen] at hstopped
    | send r =>
      obtain ⟨hr, _⟩ := p.step_send hs
      simp [hr] at hrouting
    | giveUp r =>
      obtain ⟨hr, _⟩ := p.step_giveUp hs
      simp [hr] at hrouting
    | ask i =>
      obtain ⟨c, _, hc, hn, _⟩ := p.step_ask hs
      exact absurd hn (hresult i c hc)
    | take i r =>
      obtain ⟨c, _, hc, hn, _⟩ := p.step_take hs
      exact absurd hn (hresult i c hc)
    | abandon i =>
      obtain ⟨c, hc, ha, _⟩ := p.step_abandon hs
      have hidle := (h.queues i c hc).idle (Option.isSome_iff_ne_none.mpr (hresult i c hc))
      simp [ha] at hidle
    | finish i result =>
      obtain ⟨c, hc, hn, _⟩ := p.step_finish hs
      exact absurd hn (hresult i c hc)
    | forget key =>
      obtain ⟨hopen, _, _⟩ := p.step_forget hs
      simp [hopen] at hstopped
    | stop =>
      obtain ⟨hopen, _, _⟩ := p.step_stop hs
      simp [hopen] at hstopped
  next => simp at hp

end Fed

/-- Whatever order claims, routes, handlers and a cancellation come in, every partition that is named has
one handler, which is fed with its records in order; and when the session has ended no handler is at work. -/
theorem claims_fed_in_order {cancelled : Bool} {marks : Watermarks} {events : List SessionEvent}
    {p : SessionPlay}
    (h : SessionPlay.run { session := RoutedSession.new cancelled marks } events = some p)
    (hf : ∀ key, SessionEvent.forget key ∉ events) : FedInOrder events p := by
  have hfed := fed_of_run (fed_new cancelled marks) h hf
  exact ⟨hfed.wired.nodup, hfed.named, hfed.routes, fun i c hc => (hfed.queues i c hc).line,
    fun i c hc => (hfed.queues i c hc).whole, fun r => hfed.waits, fun points => hfed.finished⟩

private def payment (partition offset : Int) : Record :=
  { topic := "payments", partition := partition, offset := offset }

/-- A record overtakes the claim of its partition; another one is routed when its handler has returned; and
of two routes to a second partition one is abandoned. -/
def overtakingRun : List SessionEvent :=
  [.fetch (payment 0 5), .send (payment 0 5), .claim ("payments", 1), .claim ("payments", 0), .ask 0,
    .take 0 (payment 0 5), .fetch (payment 1 7), .giveUp (payment 1 7), .fetch (payment 1 8),
    .send (payment 1 8), .ask 1, .take 1 (payment 1 8), .finish 0 (.ok ()), .fetch (payment 0 6),
    .send (payment 0 6), .cancel, .finish 1 (.error .clientClosed), .stop]

theorem overtaking_records_fed : ∃ p points,
    SessionPlay.run { session := RoutedSession.new false [] } overtakingRun = some p ∧
      p.finished? = some points ∧ FedInOrder overtakingRun p ∧
      p.session.keys = [("payments", 0), ("payments", 1)] ∧
      takenBy overtakingRun 0 = [payment 0 5] ∧
      sentTo overtakingRun ("payments", 0) = [payment 0 5, payment 0 6] ∧
      takenBy overtakingRun 1 = [payment 1 8] ∧ sentTo overtakingRun ("payments", 1) = [payment 1 8] := by
  obtain ⟨p, hp⟩ : ∃ p, SessionPlay.run { session := RoutedSession.new false [] } overtakingRun = some p :=
    ⟨_, rfl⟩
  have hfed := claims_fed_in_order hp (by simp [overtakingRun])
  refine ⟨p, p.session.resumeOffsets, hp, ?_, hfed, ?_, rfl, rfl, rfl, rfl⟩
  · cases hp
    rfl
  · cases hp
    rfl

end TopicConsumer
