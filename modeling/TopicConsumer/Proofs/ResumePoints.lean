import TopicConsumer.Proofs.SessionClaims

namespace TopicConsumer

/-- What the history says about a claim: the records routed to its partition were taken, are queued, or
did not get through, in this order. -/
structure ClaimTrace (events : List SessionEvent) (p : SessionPlay) (c : HandledClaim) : Prop where
  line : ∃ rest, routedTo events c.claim.key =
      takenFrom events c.claim.key ++ c.claim.queue ++ rest ∧
    (c.claim.held = true → (∀ x, SessionEvent.giveUp x ∈ events → x.place ≠ c.claim.key) →
      rest = p.routing.toList.filter (·.place = c.claim.key))
  asked : c.claim.taken = none → ∀ r ∈ takenFrom events c.claim.key, Handled events r
  inHand : ∀ o, c.claim.taken = some o →
    ∃ earlier r, takenFrom events c.claim.key = earlier ++ [r] ∧ r.offset = o
  waiting : c.asking = true → c.claim.taken = none

/-- What the history says about the value of a resume point. -/
structure PointTrace (events : List SessionEvent) (key : PartitionKey) (v : Int) : Prop where
  unrouted : routedTo events key = [] → v = -1
  nonneg : routedTo events key ≠ [] → 0 ≤ v
  low : ∀ r ∈ routedTo events key, ¬Handled events r → v ≤ r.offset
  high : ∀ r ∈ routedTo events key, Handled events r → r.offset < v
  near : routedTo events key ≠ [] → ∃ r ∈ routedTo events key, v ≤ r.offset + 1

structure Traced (events : List SessionEvent) (p : SessionPlay) : Prop where
  wired : Wired p
  takes : ∀ (i : Nat) (r : Record), SessionEvent.take i r ∈ events → p.session.keys[i]? = some r.place
  pending : ∀ r, p.routing = some r → ∀ x, SessionEvent.giveUp x ∈ events → x.place ≠ r.place
  unclaimed : ∀ key, key ∉ p.session.keys → routedTo events key = [] ∧ takenFrom events key = []
  claims : ∀ (i : Nat) (c : HandledClaim), p.session.claims[i]? = some c → ClaimTrace events p c
  points : ∀ key, PointTrace events key (p.session.resumePoint key).value

/-- Events that neither route a record nor change what a handler has in hand. -/
def SessionEvent.IsQuiet (e : SessionEvent) : Prop :=
  (∀ r, e ≠ .fetch r) ∧ (∀ i r, e ≠ .take i r) ∧ ∀ i, e ≠ .ask i

section Quiet

variable {events : List SessionEvent} {e : SessionEvent} {p q : SessionPlay}

theorem handled_other (he : ∀ i, e ≠ .ask i) {r : Record} :
    Handled (events ++ [e]) r ↔ Handled events r := by
  rw [handled_concat]
  exact or_iff_left fun ⟨i, hi, _⟩ => he i hi

theorem PointTrace.quiet {key : PartitionKey} {v : Int} (h : PointTrace events key v)
    (he : e.IsQuiet) : PointTrace (events ++ [e]) key v := by
  constructor <;> simp only [routedTo_other he.1, handled_other he.2.2]
  exacts [h.unrouted, h.nonneg, h.low, h.high, h.near]

theorem ClaimTrace.quiet {c d : HandledClaim} (h : ClaimTrace events p c) (he : e.IsQuiet)
    (hk : d.claim.key = c.claim.key) (hq : d.claim.queue = c.claim.queue)
    (ht : d.claim.taken = c.claim.taken) (ha : d.asking = true → c.asking = true)
    (hr : d.claim.held = true → (∀ x, SessionEvent.giveUp x ∈ events ++ [e] → x.place ≠ c.claim.key) →
      c.claim.held = true ∧ q.routing.toList.filter (·.place = c.claim.key) =
        p.routing.toList.filter (·.place = c.claim.key)) :
    ClaimTrace (events ++ [e]) q d := by
  constructor <;> simp only [hk, hq, ht, routedTo_other he.1, takenFrom_other he.2.1, handled_other he.2.2]
  · obtain ⟨rest, hline, hrest⟩ := h.line
    refine ⟨rest, hline, ?_⟩
    intro hd hx
    obtain ⟨hc, hrouting⟩ := hr hd hx
    rw [hrouting]
    exact hrest hc fun x hm => hx x (List.mem_append_left _ hm)
  · exact h.asked
  · exact h.inHand
  · exact fun hd => h.waiting (ha hd)

theorem Traced.quiet (h : Traced events p) (he : e.IsQuiet) (hw : Wired q)
    (hk : p.session.keys <+: q.session.keys)
    (hp : ∀ key, q.session.resumePoint key = p.session.resumePoint key)
    (hr : ∀ r, q.routing = some r → p.routing = some r ∧ ∀ x, e ≠ .giveUp x)
    (hc : ∀ (i : Nat) (c : HandledClaim), q.session.claims[i]? = some c →
      ClaimTrace (events ++ [e]) q c) :
    Traced (events ++ [e]) q := by
  refine ⟨hw, ?_, ?_, ?_, hc, ?_⟩
  · intro i r hm
    have hm' := (List.mem_append.mp hm).resolve_right (by simpa using (he.2.1 i r).symm)
    have hi := h.takes i r hm'
    obtain ⟨more, hmore⟩ := hk
    rw [← hmore, List.getElem?_append_left (List.getElem?_eq_some_iff.mp hi).1]
    exact hi
  · intro r hq x hx
    obtain ⟨hp', hne⟩ := hr r hq
    exact h.pending r hp' x ((List.mem_append.mp hx).resolve_right (by simpa using (hne x).symm))
  · intro key hn
    rw [routedTo_other he.1, takenFrom_other he.2.1]
    exact h.unclaimed key fun hm => hn (hk.subset hm)
  · intro key
    rw [hp]
    exact (h.points key).quiet he

end Quiet

section Route

variable {events : List SessionEvent} {p q : SessionPlay}

theorem Traced.claim (h : Traced events p) {key : PartitionKey}
    (hs : p.step? (.claim key) = some q) : Traced (events ++ [.claim key]) q := by
  have hw := h.wired.step hs (by simp)
  obtain ⟨ho, hr, rfl⟩ := p.step_claim hs
  have he : (SessionEvent.claim key).IsQuiet := ⟨by simp, by simp, by simp⟩
  refine h.quiet he hw (RoutedSession.keys_prefix_claim _ _)
    (fun k => RoutedSession.resumePoint_claim _ _ _) (by simp [hr]) ?_
  intro i c hc
  rcases RoutedSession.claim_getElem? hc with hc | ⟨hn, rfl⟩
  · exact (h.claims i c hc).quiet he rfl rfl rfl (fun ha => ha) fun hh _ => ⟨hh, rfl⟩
  · obtain ⟨hrouted, htaken⟩ := h.unclaimed key (h.wired.fresh ho hn)
    constructor <;>
      simp [routedTo_other he.1, takenFrom_other he.2.1, hrouted, htaken, hr]

theorem PointTrace.fetch {r : Record} {v : Int} (h : PointTrace events r.place v)
    (ho : Orderly (events ++ [.fetch r])) (hr : ¬Handled events r) :
    PointTrace (events ++ [.fetch r]) r.place (if v = -1 then r.offset else v) := by
  obtain ⟨hpos, hlt, _⟩ := ho.fits
  have hrouted : routedTo (events ++ [.fetch r]) r.place = routedTo events r.place ++ [r] := by
    simp [routedTo_fetch]
  have hmem : ∀ x ∈ routedTo (events ++ [.fetch r]) r.place, x ∈ routedTo events r.place ∨ x = r := by
    intro x hx
    simpa [hrouted] using hx
  have hhandled : ∀ x, Handled (events ++ [.fetch r]) x ↔ Handled events x := fun x =>
    handled_other (by simp)
  by_cases hempty : routedTo events r.place = []
  · rw [if_pos (h.unrouted hempty)]
    have hsingle : ∀ x ∈ routedTo (events ++ [.fetch r]) r.place, x = r := fun x hx =>
      (hmem x hx).resolve_left (by simp [hempty])
    refine ⟨by simp [hrouted], fun _ => hpos, ?_, ?_, fun _ => ⟨r, by simp [hrouted], by omega⟩⟩
    · intro x hx _
      exact Int.le_of_eq (by rw [hsingle x hx])
    · intro x hx hh
      rw [hsingle x hx, hhandled] at hh
      exact absurd hh hr
  · have hv := h.nonneg hempty
    obtain ⟨y, hy, hnear⟩ := h.near hempty
    have hy' := hlt y hy
    rw [if_neg (by omega)]
    refine ⟨by simp [hrouted], fun _ => hv, ?_, ?_, fun _ => ⟨y, by simp [hrouted, hy], hnear⟩⟩
    · intro x hx hh
      rw [hhandled] at hh
      rcases hmem x hx with hx | rfl
      · exact h.low x hx hh
      · omega
    · intro x hx hh
      rw [hhandled] at hh
      rcases hmem x hx with hx | rfl
      · exact h.high x hx hh
      · exact absurd hh hr

/-- What was taken had been routed. -/
theorem Traced.routed_of_taken (h : Traced events p) {key : PartitionKey} {r : Record}
    (hr : r ∈ takenFrom events key) : r ∈ routedTo events key := by
  obtain ⟨⟨i, hi⟩, hk⟩ := mem_takenFrom.mp hr
  have hkey := h.takes i r hi
  rw [RoutedSession.keys, List.getElem?_map] at hkey
  obtain ⟨c, hc, hck⟩ := Option.map_eq_some_iff.mp hkey
  obtain ⟨rest, hline, _⟩ := (h.claims i c hc).line
  rw [hck, hk] at hline
  rw [hline]
  simp [hr]

theorem Traced.not_handled_of_new (h : Traced events p) {r : Record}
    (ho : Orderly (events ++ [.fetch r])) : ¬Handled events r := by
  intro hh
  have := ho.fits.2.1 r (h.routed_of_taken hh.mem_takenFrom)
  omega

theorem Traced.fetch (h : Traced events p) {r : Record} (ho : Orderly (events ++ [.fetch r]))
    (hs : p.step? (.fetch r) = some q) : Traced (events ++ [.fetch r]) q := by
  have hw := h.wired.step hs (by simp)
  obtain ⟨hopen, hr, rfl⟩ := p.step_fetch hs
  obtain ⟨_, _, hgiven⟩ := ho.fits
  have hkeys : p.session.keys <+: (p.session.fetch r).keys :=
    RoutedSession.keys_prefix_claim p.session r.place
  have hhandled : ∀ x, Handled (events ++ [.fetch r]) x ↔ Handled events x := fun x =>
    handled_other (by simp)
  have htaken : ∀ key, takenFrom (events ++ [.fetch r]) key = takenFrom events key := fun key =>
    takenFrom_other (by simp) key
  have hother : ∀ key, key ≠ r.place → routedTo (events ++ [.fetch r]) key = routedTo events key :=
    fun key hk => by simp [routedTo_fetch, Ne.symm hk]
  refine ⟨hw, ?_, ?_, ?_, ?_, ?_⟩
  · intro i x hm
    have hi := h.takes i x (by simpa using hm)
    obtain ⟨more, hmore⟩ := hkeys
    rw [← hmore, List.getElem?_append_left (List.getElem?_eq_some_iff.mp hi).1]
    exact hi
  · intro x hx y hy
    cases Option.some.inj hx
    exact hgiven y (by simpa using hy)
  · intro key hn
    have hne : key ≠ r.place := fun he => hn (he ▸ h.wired.mem_keys_claim r.place)
    rw [hother key hne, htaken]
    exact h.unclaimed key fun hm => hn (hkeys.subset hm)
  · intro i c hc
    rcases RoutedSession.claim_getElem? (s := p.session) hc with hc | ⟨hn, rfl⟩
    · obtain ⟨⟨rest, hline, hrest⟩, hasked, hin, hwait⟩ := h.claims i c hc
      constructor
      · rw [htaken]
        by_cases hk : c.claim.key = r.place
        · refine ⟨rest ++ [r], by simp [hk ▸ hline, routedTo_fetch, hk], ?_⟩
          intro hheld _
          rw [hrest hheld fun x hx => hk ▸ hgiven x hx]
          simp [hr, hk]
        · refine ⟨rest, by rw [hother _ hk, hline], ?_⟩
          intro hheld hx
          rw [hrest hheld fun x hm => hx x (by simp [hm])]
          simp [hr, Ne.symm hk]
      · simpa only [htaken, hhandled] using hasked
      · simpa only [htaken] using hin
      · exact hwait
    · obtain ⟨hrouted, htaken'⟩ := h.unclaimed r.place (h.wired.fresh hopen hn)
      constructor <;> simp [routedTo_fetch, htaken, hrouted, htaken']
  · intro key
    rw [RoutedSession.resumePoint_fetch]
    split
    next hk =>
      subst hk
      have hp := (h.points r.place).fetch ho (h.not_handled_of_new ho)
      rw [ResumePoint.routed]
      split
      next hv => rwa [if_pos hv] at hp
      next hv => rwa [if_neg hv] at hp
    next hk =>
      have hp := h.points key
      constructor <;> simp only [hother key hk, hhandled]
      exacts [hp.unrouted, hp.nonneg, hp.low, hp.high, hp.near]

theorem Traced.send (h : Traced events p) {r : Record} (hs : p.step? (.send r) = some q) :
    Traced (events ++ [.send r]) q := by
  have hw := h.wired.step hs (by simp)
  have he : (SessionEvent.send r).IsQuiet := ⟨by simp, by simp, by simp⟩
  obtain ⟨hr, hfull, t, ht, rfl⟩ := p.step_send hs
  obtain ⟨hopen, hm⟩ := h.wired.routing r hr
  obtain ⟨i, hi⟩ := h.wired.sender hopen _ hm
  obtain ⟨c, hc, hk⟩ := h.wired.claim_of_sender hi
  -- No other claim is concerned by the route.
  have hother : ∀ (j : Nat) (d : HandledClaim), j ≠ i → p.session.claims[j]? = some d →
      ClaimTrace (events ++ [.send r]) { p with session := t, routing := none } d := by
    intro j d hj hd
    have hne : r.place ≠ d.claim.key := fun hp => hj (h.wired.key_injective hd hc (by rw [hk, hp]))
    exact (h.claims j d hd).quiet he rfl rfl rfl (fun ha => ha) fun hh _ => ⟨hh, by simp [hr, hne]⟩
  obtain ⟨hheld, rfl⟩ | ⟨hclosed, rfl⟩ := RoutedSession.sendNow_routed hi hc hfull ht
  · refine h.quiet he hw (RoutedSession.keys_prefix_setClaim hc rfl) (fun _ => rfl) (by simp) ?_
    intro j d hd
    rcases RoutedSession.setClaim_getElem? hd with ⟨rfl, rfl⟩ | ⟨hj, hd⟩
    · obtain ⟨⟨rest, hline, hrest⟩, hasked, hin, hwait⟩ := h.claims j c hc
      constructor <;>
        simp only [routedTo_other he.1, takenFrom_other he.2.1, handled_other he.2.2]
      · refine ⟨[], ?_, fun _ _ => rfl⟩
        rw [hline, hrest hheld fun x hx => hk ▸ h.pending r hr x hx]
        simp [hr, hk]
      · exact hasked
      · exact hin
      · exact hwait
    · exact hother j d hj hd
  · refine h.quiet he hw List.prefix_rfl (fun _ => rfl) (by simp) ?_
    intro j d hd
    by_cases hj : j = i
    · subst hj
      cases Option.some.inj (hc.symm.trans hd)
      have hfed := h.wired.fed hopen c (List.mem_of_getElem? hc)
      have hheld : c.claim.held = false := hclosed.resolve_right (by simp [hfed])
      exact (h.claims j c hc).quiet he rfl rfl rfl (fun ha => ha) (by simp [hheld])
    · exact hother j d hj hd

theorem Traced.giveUp (h : Traced events p) {r : Record} (hs : p.step? (.giveUp r) = some q) :
    Traced (events ++ [.giveUp r]) q := by
  have hw := h.wired.step hs (by simp)
  have he : (SessionEvent.giveUp r).IsQuiet := ⟨by simp, by simp, by simp⟩
  obtain ⟨hr, rfl⟩ := p.step_giveUp hs
  refine h.quiet he hw List.prefix_rfl (fun _ => rfl) (by simp) ?_
  intro i c hc
  refine (h.claims i c hc).quiet he rfl rfl rfl (fun ha => ha) fun hh hx => ⟨hh, ?_⟩
  have hne := hx r (by simp)
  simp [hr, hne]

end Route

section Handle

variable {events : List SessionEvent} {p q : SessionPlay} {i : Nat} {c d : HandledClaim}

theorem Traced.edit {e : SessionEvent} (h : Traced events p) (he : e.IsQuiet) (hg : ∀ x, e ≠ .giveUp x)
    (hs : p.step? e = some q) (hf : ∀ key, e ≠ .forget key)
    (hc : p.session.claims[i]? = some c) (hq : q = { p with session := p.session.setClaim i d })
    (hk : d.claim.key = c.claim.key) (hqueue : d.claim.queue = c.claim.queue)
    (ht : d.claim.taken = c.claim.taken) (ha : d.asking = true → c.asking = true)
    (hheld : d.claim.held = true → c.claim.held = true) : Traced (events ++ [e]) q := by
  have hw := h.wired.step hs hf
  subst hq
  refine h.quiet he hw (RoutedSession.keys_prefix_setClaim hc hk) (fun _ => rfl)
    (fun _ hr => ⟨hr, hg⟩) ?_
  intro j x hx
  rcases RoutedSession.setClaim_getElem? hx with ⟨rfl, rfl⟩ | ⟨_, hx⟩
  · exact (h.claims j c hc).quiet he hk hqueue ht ha fun hd _ => ⟨hheld hd, rfl⟩
  · exact (h.claims j x hx).quiet he rfl rfl rfl (fun ha => ha) fun hd _ => ⟨hd, rfl⟩

theorem Traced.abandon (h : Traced events p) (hs : p.step? (.abandon i) = some q) :
    Traced (events ++ [.abandon i]) q := by
  obtain ⟨c, hc, _, hq⟩ := p.step_abandon hs
  exact h.edit ⟨by simp, by simp, by simp⟩ (by simp) hs (by simp) hc hq rfl rfl rfl (by simp) fun hh => hh

theorem Traced.finish (h : Traced events p) {result : Except Failure Unit}
    (hs : p.step? (.finish i result) = some q) : Traced (events ++ [.finish i result]) q := by
  obtain ⟨c, hc, _, hq⟩ := p.step_finish hs
  exact h.edit ⟨by simp, by simp, by simp⟩ (by simp) hs (by simp) hc hq rfl rfl rfl (by simp) (by simp)

theorem Traced.cancel (h : Traced events p) (hs : p.step? .cancel = some q) :
    Traced (events ++ [.cancel]) q := by
  have hw := h.wired.step hs (by simp)
  have he : SessionEvent.cancel.IsQuiet := ⟨by simp, by simp, by simp⟩
  cases Option.some.inj hs
  refine h.quiet he hw List.prefix_rfl (fun _ => rfl) (fun _ hr => ⟨hr, by simp⟩) ?_
  intro j x hx
  exact (h.claims j x hx).quiet he rfl rfl rfl (fun ha => ha) fun hd _ => ⟨hd, rfl⟩

theorem Traced.stop (h : Traced events p) (hs : p.step? .stop = some q) :
    Traced (events ++ [.stop]) q := by
  have hw := h.wired.step hs (by simp)
  have he : SessionEvent.stop.IsQuiet := ⟨by simp, by simp, by simp⟩
  obtain ⟨_, _, rfl⟩ := p.step_stop hs
  have hkeys : p.session.stop.keys = p.session.keys := by
    simp [RoutedSession.keys, RoutedSession.stop, Function.comp_def]
  refine h.quiet he hw ⟨[], by rw [List.append_nil, hkeys]⟩ (fun _ => rfl) (fun _ hr => ⟨hr, by simp⟩) ?_
  intro j x hx
  simp only [RoutedSession.stop, List.getElem?_map] at hx
  obtain ⟨c, hc, rfl⟩ := Option.map_eq_some_iff.mp hx
  exact (h.claims j c hc).quiet he rfl rfl rfl (fun ha => ha) fun hd _ => ⟨hd, rfl⟩

theorem Traced.take_mem (h : Traced events p) (hc : p.session.claims[i]? = some c) {r : Record} :
    SessionEvent.take i r ∈ events ↔ r ∈ takenFrom events c.claim.key := by
  have hi := RoutedSession.keys_getElem? hc
  constructor
  · intro hm
    exact mem_takenFrom.mpr ⟨⟨i, hm⟩, Option.some.inj ((h.takes i r hm).symm.trans hi)⟩
  · intro hm
    obtain ⟨⟨j, hj⟩, hk⟩ := mem_takenFrom.mp hm
    have hkj := h.takes j r hj
    rw [hk] at hkj
    have hij : i = j := (List.getElem?_inj (List.getElem?_eq_some_iff.mp hi).1 h.wired.nodup).mp
      (hi.trans hkj.symm)
    rwa [hij]

/-- The records of a claim that were not taken come behind those that were. -/
theorem Traced.untaken_lt (h : Traced events p) (ho : Orderly events)
    (hc : p.session.claims[i]? = some c) {x y : Record} (hx : x ∈ takenFrom events c.claim.key)
    (hy : y ∈ routedTo events c.claim.key) (hn : y ∉ takenFrom events c.claim.key) :
    x.offset < y.offset := by
  obtain ⟨rest, hline, _⟩ := (h.claims i c hc).line
  have hsorted := routedTo_sorted ho c.claim.key
  rw [hline, List.append_assoc] at hsorted hy
  exact (List.pairwise_append.mp hsorted).2.2 x hx y ((List.mem_append.mp hy).resolve_left hn)

theorem Traced.taken_sorted (h : Traced events p) (ho : Orderly events)
    (hc : p.session.claims[i]? = some c) :
    (takenFrom events c.claim.key).Pairwise (·.offset < ·.offset) := by
  obtain ⟨rest, hline, _⟩ := (h.claims i c hc).line
  have hsorted := routedTo_sorted ho c.claim.key
  rw [hline, List.append_assoc] at hsorted
  exact (List.pairwise_append.mp hsorted).1

theorem PointTrace.congr {e : SessionEvent} {key : PartitionKey} {v : Int}
    (h : PointTrace events key v) (he : ∀ r, e ≠ .fetch r)
    (hh : ∀ x ∈ routedTo events key, Handled (events ++ [e]) x ↔ Handled events x) :
    PointTrace (events ++ [e]) key v := by
  constructor <;> rw [routedTo_other he]
  · exact h.unrouted
  · exact h.nonneg
  · exact fun x hx hn => h.low x hx fun hd => hn ((hh x hx).mpr hd)
  · exact fun x hx hd => h.high x hx ((hh x hx).mp hd)
  · exact h.near

/-- The point after a question: behind the record in hand, which is handled now. -/
theorem Traced.point_ask (h : Traced events p) (ho : Orderly events)
    (hc : p.session.claims[i]? = some c) {o : Int} (ht : c.claim.taken = some o) :
    PointTrace (events ++ [.ask i]) c.claim.key (o + 1) := by
  obtain ⟨earlier, r, htaken, rfl⟩ := (h.claims i c hc).inHand o ht
  have hr : r ∈ takenFrom events c.claim.key := by simp [htaken]
  have hrouted := h.routed_of_taken hr
  have hhandled : ∀ x ∈ takenFrom events c.claim.key, Handled (events ++ [.ask i]) x := fun x hx =>
    handled_concat.mpr (Or.inr ⟨i, rfl, (h.take_mem hc).mpr hx⟩)
  have hnonneg := routedTo_nonneg ho hrouted
  constructor <;> rw [routedTo_other (by simp)]
  · exact fun hempty => absurd hempty (List.ne_nil_of_mem hrouted)
  · intro _
    omega
  · intro x hx hn
    have := h.untaken_lt ho hc hr hx fun hm => hn (hhandled x hm)
    omega
  · intro x hx hd
    have hx' := hd.mem_takenFrom
    rw [takenFrom_other (by simp), (mem_routedTo.mp hx).2, htaken] at hx'
    rcases List.mem_append.mp hx' with hx' | hx'
    · have := h.taken_sorted ho hc
      rw [htaken] at this
      have := (List.pairwise_append.mp this).2.2 x hx' r (by simp)
      omega
    · rw [List.mem_singleton.mp hx']
      omega
  · exact fun _ => ⟨r, hrouted, by omega⟩

theorem Traced.ask (h : Traced events p) (ho : Orderly events) (hs : p.step? (.ask i) = some q) :
    Traced (events ++ [.ask i]) q := by
  have hw := h.wired.step hs (by simp)
  obtain ⟨c, point, hc, _, _, rfl, hpoint⟩ := p.step_ask hs
  have hkeys := RoutedSession.keys_setClaim hc (d := { c with
    claim := { c.claim with taken := none }, asking := true }) rfl
  have htaken : ∀ key, takenFrom (events ++ [.ask i]) key = takenFrom events key :=
    takenFrom_other (by simp)
  have hrouted : ∀ key, routedTo (events ++ [.ask i]) key = routedTo events key :=
    routedTo_other (by simp)
  have hgrow : ∀ x, Handled events x → Handled (events ++ [.ask i]) x := fun x hx =>
    handled_concat.mpr (Or.inl hx)
  refine ⟨hw, ?_, ?_, ?_, ?_, ?_⟩
  · intro j r hm
    exact (congrArg (·[j]?) hkeys).trans (h.takes j r (by simpa using hm))
  · exact fun r hr x hx => h.pending r hr x (by simpa using hx)
  · intro key hn
    rw [hrouted, htaken]
    exact h.unclaimed key (hkeys ▸ hn)
  · intro j d hd
    rcases RoutedSession.setClaim_getElem? hd with ⟨rfl, rfl⟩ | ⟨_, hd⟩
    · obtain ⟨⟨rest, hline, hrest⟩, _, _, _⟩ := h.claims j c hc
      refine ⟨⟨rest, by rw [hrouted, htaken]; exact hline, ?_⟩, ?_, by simp, by simp⟩
      · exact fun hh hx => hrest hh fun x hm => hx x (by simp [hm])
      · intro _ x hx
        rw [htaken] at hx
        exact handled_concat.mpr (Or.inr ⟨j, rfl, (h.take_mem hc).mpr hx⟩)
    · obtain ⟨⟨rest, hline, hrest⟩, hasked, hin, hwait⟩ := h.claims j d hd
      refine ⟨⟨rest, by rw [hrouted, htaken]; exact hline, ?_⟩, ?_, ?_, hwait⟩
      · exact fun hh hx => hrest hh fun x hm => hx x (by simp [hm])
      · exact fun hn x hx => hgrow x (hasked hn x (htaken _ ▸ hx))
      · simpa only [htaken] using hin
  · intro key
    rw [RoutedSession.resumePoint_setPoint]
    split
    next hk =>
      subst hk
      rcases hpoint with ⟨hn, rfl⟩ | ⟨o, ht, rfl⟩
      · refine (h.points _).congr (by simp) fun x _ => ⟨fun hd => ?_, hgrow x⟩
        rcases handled_concat.mp hd with hd | ⟨j, hj, hm⟩
        · exact hd
        · cases hj
          exact (h.claims i c hc).asked hn x ((h.take_mem hc).mp hm)
      · exact h.point_ask ho hc ht
    next hk =>
      refine (h.points key).congr (by simp) fun x hx => ⟨fun hd => ?_, hgrow x⟩
      rcases handled_concat.mp hd with hd | ⟨j, hj, hm⟩
      · exact hd
      · cases hj
        have hx' := (mem_takenFrom.mp ((h.take_mem hc).mp hm)).2
        exact absurd ((mem_routedTo.mp hx).2.symm.trans hx') hk

/-- The point after a record was taken: at the record, which is in hand now. -/
theorem Traced.point_take (h : Traced events p) (ho : Orderly events)
    (hc : p.session.claims[i]? = some c) (ha : c.asking = true) {r : Record} {rest : List Record}
    (hq : c.claim.queue = r :: rest) :
    PointTrace (events ++ [.take i r]) c.claim.key r.offset := by
  have ht := h.claims i c hc
  have hall := ht.asked (ht.waiting ha)
  obtain ⟨_, hline, _⟩ := ht.line
  rw [hq] at hline
  have hrouted : r ∈ routedTo events c.claim.key := by simp [hline]
  have hsorted := routedTo_sorted ho c.claim.key
  rw [hline, List.append_assoc] at hsorted
  obtain ⟨_, hbehind, hbefore⟩ := List.pairwise_append.mp hsorted
  have hnew : r ∉ takenFrom events c.claim.key := by
    intro hm
    have := hbefore r hm r (by simp)
    omega
  have hhandled : ∀ x ∈ routedTo events c.claim.key, Handled events x → x ∈ takenFrom events c.claim.key :=
    fun x hx hd => (mem_routedTo.mp hx).2 ▸ hd.mem_takenFrom
  have hp := h.points c.claim.key
  have hlow := hp.low r hrouted fun hd => hnew (hhandled r hrouted hd)
  constructor <;> rw [routedTo_other (by simp)]
  · exact fun hempty => absurd hempty (List.ne_nil_of_mem hrouted)
  · exact fun _ => routedTo_nonneg ho hrouted
  · intro x hx hn
    rw [handled_other (by simp)] at hn
    rw [hline, List.append_assoc] at hx
    have hx' := (List.mem_append.mp hx).resolve_left fun hm => hn (hall x hm)
    rcases List.mem_cons.mp hx' with rfl | hx'
    · exact Int.le_refl _
    · have := (List.pairwise_cons.mp hbehind).1 x hx'
      omega
  · intro x hx hd
    rw [handled_other (by simp)] at hd
    have := hp.high x hx hd
    omega
  · exact fun _ => ⟨r, hrouted, by omega⟩

theorem Traced.take (h : Traced events p) (ho : Orderly events) {r : Record}
    (hs : p.step? (.take i r) = some q) : Traced (events ++ [.take i r]) q := by
  have hw := h.wired.step hs (by simp)
  obtain ⟨c, queue, hc, _, ha, hq, rfl⟩ := p.step_take hs
  have hkeys := RoutedSession.keys_setClaim hc (d := { c with
    claim := { c.claim with queue := queue, taken := some r.offset }, asking := false }) rfl
  have hplace : r.place = c.claim.key := by
    obtain ⟨_, hline, _⟩ := (h.claims i c hc).line
    exact (mem_routedTo.mp (show r ∈ routedTo events c.claim.key by simp [hline, hq])).2
  have hrouted : ∀ key, routedTo (events ++ [.take i r]) key = routedTo events key :=
    routedTo_other (by simp)
  have hhandled : ∀ x, Handled (events ++ [.take i r]) x ↔ Handled events x := fun x =>
    handled_other (by simp)
  have hother : ∀ key, key ≠ c.claim.key → takenFrom (events ++ [.take i r]) key = takenFrom events key :=
    fun key hk => by simp [takenFrom_take, hplace, Ne.symm hk]
  refine ⟨hw, ?_, ?_, ?_, ?_, ?_⟩
  · intro j x hm
    refine (congrArg (·[j]?) hkeys).trans ?_
    rcases List.mem_append.mp hm with hm | hm
    · exact h.takes j x hm
    · obtain ⟨rfl, rfl⟩ := SessionEvent.take.inj (List.mem_singleton.mp hm)
      exact hplace ▸ RoutedSession.keys_getElem? hc
  · exact fun x hx y hy => h.pending x hx y (by simpa using hy)
  · intro key hn
    have hn' : key ∉ p.session.keys := hkeys ▸ hn
    have hne : key ≠ c.claim.key := fun he =>
      hn' (he ▸ List.mem_of_getElem? (RoutedSession.keys_getElem? hc))
    rw [hrouted, hother key hne]
    exact h.unclaimed key hn'
  · intro j d hd
    rcases RoutedSession.setClaim_getElem? hd with ⟨rfl, rfl⟩ | ⟨hj, hd⟩
    · obtain ⟨⟨rest, hline, hrest⟩, _, _, _⟩ := h.claims j c hc
      have htaken : takenFrom (events ++ [.take j r]) c.claim.key =
          takenFrom events c.claim.key ++ [r] := by simp [takenFrom_take, hplace]
      refine ⟨⟨rest, ?_, ?_⟩, by simp, ?_, by simp⟩
      · simp only [hrouted, htaken]
        simp [hline, hq]
      · exact fun hh hx => hrest hh fun x hm => hx x (by simp [hm])
      · intro o ho
        cases Option.some.inj ho
        exact ⟨_, r, htaken, rfl⟩
    · have hne : d.claim.key ≠ c.claim.key := fun he => hj (h.wired.key_injective hd hc he)
      obtain ⟨⟨rest, hline, hrest⟩, hasked, hin, hwait⟩ := h.claims j d hd
      refine ⟨⟨rest, by rw [hrouted, hother _ hne]; exact hline, ?_⟩, ?_, ?_, hwait⟩
      · exact fun hh hx => hrest hh fun x hm => hx x (by simp [hm])
      · simpa only [hother _ hne, hhandled] using hasked
      · simpa only [hother _ hne] using hin
  · intro key
    rw [RoutedSession.resumePoint_setPoint]
    split
    next hk =>
      subst hk
      exact h.point_take ho hc ha hq
    next => exact (h.points key).congr (by simp) fun x _ => hhandled x

end Handle

theorem traced_new (cancelled : Bool) (marks : Watermarks) :
    Traced [] { session := RoutedSession.new cancelled marks } := by
  refine ⟨wired_new cancelled marks, by simp, by simp, by simp [routedTo, takenFrom], ?_, ?_⟩
  · simp [RoutedSession.new]
  · intro key
    constructor <;> simp [routedTo, RoutedSession.new, RoutedSession.resumePoint, Table.get?]

theorem Traced.step {events : List SessionEvent} {p q : SessionPlay} {e : SessionEvent}
    (h : Traced events p) (ho : Orderly (events ++ [e])) (hs : p.step? e = some q)
    (hf : ∀ key, e ≠ .forget key) : Traced (events ++ [e]) q := by
  cases e with
  | claim key => exact h.claim hs
  | fetch r => exact h.fetch ho hs
  | send r => exact h.send hs
  | giveUp r => exact h.giveUp hs
  | ask i => exact h.ask ho.past hs
  | take i r => exact h.take ho.past hs
  | abandon i => exact h.abandon hs
  | finish i result => exact h.finish hs
  | cancel => exact h.cancel hs
  | forget key => exact absurd rfl (hf key)
  | stop => exact h.stop hs

theorem traced_of_run {first p : SessionPlay} {events : List SessionEvent} (hfirst : Traced [] first)
    (h : first.run events = some p) (ho : Orderly events)
    (hf : ∀ key, SessionEvent.forget key ∉ events) : Traced events p := by
  induction events using List.reverseRecOn generalizing p with
  | nil => exact Option.some.inj h ▸ hfirst
  | append_singleton events e ih =>
    rw [SessionPlay.run_concat] at h
    obtain ⟨before, hrun, hs⟩ := Option.bind_eq_some_iff.mp h
    have hb := ih hrun ho.past fun key hm => hf key (List.mem_append_left _ hm)
    exact hb.step ho hs fun key he => hf key (by simp [he])

theorem resume_nodup_of_step {p q : SessionPlay} {e : SessionEvent} (hs : p.step? e = some q)
    (h : (p.session.resume.map Prod.fst).Nodup) : (q.session.resume.map Prod.fst).Nodup := by
  have hclaim : ∀ key, ((p.session.claim key).resume.map Prod.fst).Nodup := by
    intro key
    rw [RoutedSession.claim]
    split <;> exact Table.nodup_set h
  cases e with
  | claim key =>
    obtain ⟨_, _, rfl⟩ := p.step_claim hs
    exact hclaim key
  | fetch r =>
    obtain ⟨_, _, rfl⟩ := p.step_fetch hs
    exact Table.nodup_set (hclaim r.place)
  | send r =>
    obtain ⟨_, _, t, ht, rfl⟩ := p.step_send hs
    exact RoutedSession.resume_sendNow ht ▸ h
  | giveUp r =>
    obtain ⟨_, rfl⟩ := p.step_giveUp hs
    exact h
  | ask i =>
    obtain ⟨c, point, _, _, _, rfl, _⟩ := p.step_ask hs
    exact Table.nodup_set h
  | take i r =>
    obtain ⟨c, rest, _, _, _, _, rfl⟩ := p.step_take hs
    exact Table.nodup_set h
  | abandon i =>
    obtain ⟨c, _, _, rfl⟩ := p.step_abandon hs
    exact h
  | finish i result =>
    obtain ⟨c, _, _, rfl⟩ := p.step_finish hs
    exact h
  | cancel =>
    cases Option.some.inj hs
    exact h
  | forget key =>
    obtain ⟨_, _, rfl⟩ := p.step_forget hs
    exact h
  | stop =>
    obtain ⟨_, _, rfl⟩ := p.step_stop hs
    exact h

theorem resume_nodup_of_run {first p : SessionPlay} {events : List SessionEvent}
    (hfirst : (first.session.resume.map Prod.fst).Nodup) (h : first.run events = some p) :
    (p.session.resume.map Prod.fst).Nodup := by
  induction events generalizing first with
  | nil => exact Option.some.inj h ▸ hfirst
  | cons e rest ih =>
    obtain ⟨next, hs, hrun⟩ := Option.bind_eq_some_iff.mp h
    exact ih (resume_nodup_of_step hs hfirst) hrun

theorem mem_resumeOffsets {s : RoutedSession} (h : (s.resume.map Prod.fst).Nodup) {key : PartitionKey}
    {v : Int} : (key, v) ∈ s.resumeOffsets ↔ (s.resumePoint key).offset? = some v := by
  have hpoints : ∀ point : Option Int, (key, point) ∈ s.points ↔
      ∃ found, s.resume.get? key = some found ∧ found.offset? = point := by
    intro point
    simp only [RoutedSession.points, List.mem_mergeSort, List.mem_map, Prod.mk.injEq]
    constructor
    · rintro ⟨⟨k, found⟩, hm, rfl, rfl⟩
      exact ⟨found, (Table.mem_iff_get? h).mp hm, rfl⟩
    · rintro ⟨found, hg, rfl⟩
      exact ⟨_, (Table.mem_iff_get? h).mpr hg, rfl, rfl⟩
  have hoffsets : (key, v) ∈ s.resumeOffsets ↔ (key, some v) ∈ s.points := by
    simp only [RoutedSession.resumeOffsets, List.mem_filterMap, Option.map_eq_some_iff, Prod.mk.injEq]
    constructor
    · rintro ⟨⟨k, point⟩, hm, w, hw, rfl, rfl⟩
      rwa [← hw]
    · exact fun hm => ⟨_, hm, v, rfl, rfl, rfl⟩
  rw [hoffsets, hpoints, RoutedSession.resumePoint]
  cases hg : s.resume.get? key with
  | none => simp [ResumePoint.offset?]
  | some found => simp

/-- Where a partition is to be read again: nowhere if no record was routed to it, and else at or before
every record that was not taken or not handled, and behind every record that was handled. -/
structure ResumesAt (events : List SessionEvent) (key : PartitionKey) (point : Option Int) : Prop where
  routed : point.isSome = true ↔ ∃ r, SessionEvent.fetch r ∈ events ∧ r.place = key
  untaken : ∀ v, point = some v → ∀ r ∈ routedTo events key, (∀ i, SessionEvent.take i r ∉ events) →
    v ≤ r.offset
  inHand : ∀ v, point = some v → ∀ r ∈ takenFrom events key, ¬Handled events r → v ≤ r.offset
  handled : ∀ v, point = some v → ∀ r ∈ takenFrom events key, Handled events r → r.offset < v

theorem Traced.resumesAt {events : List SessionEvent} {p : SessionPlay} (h : Traced events p)
    (key : PartitionKey) : ResumesAt events key (p.session.resumePoint key).offset? := by
  have hp := h.points key
  have hv : ∀ v, (p.session.resumePoint key).offset? = some v → (p.session.resumePoint key).value = v := by
    intro v hv
    rw [ResumePoint.offset?] at hv
    split at hv
    next => exact Option.some.inj hv
    next => simp at hv
  refine ⟨?_, ?_, ?_, ?_⟩
  · have hrouted : (∃ r, SessionEvent.fetch r ∈ events ∧ r.place = key) ↔ routedTo events key ≠ [] := by
      constructor
      · rintro ⟨r, hr, hk⟩
        exact List.ne_nil_of_mem (mem_routedTo.mpr ⟨hr, hk⟩)
      · intro hne
        obtain ⟨r, hr⟩ := List.exists_mem_of_ne_nil _ hne
        exact ⟨r, mem_routedTo.mp hr⟩
    rw [hrouted, ResumePoint.offset?]
    constructor
    · intro hs hempty
      simp [hp.unrouted hempty] at hs
    · intro hne
      simp [hp.nonneg hne]
  · intro v he r hr hn
    rw [← hv v he]
    refine hp.low r hr fun hd => ?_
    obtain ⟨⟨i, hi⟩, _⟩ := mem_takenFrom.mp hd.mem_takenFrom
    exact hn i hi
  · intro v he r hr hn
    rw [← hv v he]
    exact hp.low r (h.routed_of_taken hr) hn
  · intro v he r hr hd
    rw [← hv v he]
    exact hp.high r (h.routed_of_taken hr) hd

/-- Whatever happens in a session whose claims are kept, and in whatever order, every partition is read
again from the right place; and that is what ending the session returns. -/
theorem resume_points_exact {cancelled : Bool} {marks : Watermarks} {events : List SessionEvent}
    {p : SessionPlay}
    (h : SessionPlay.run { session := RoutedSession.new cancelled marks } events = some p)
    (ho : Orderly events) (hf : ∀ key, SessionEvent.forget key ∉ events) (key : PartitionKey) :
    ResumesAt events key (p.session.resumePoint key).offset? ∧
      (∀ v, (key, v) ∈ p.session.resumeOffsets ↔ (p.session.resumePoint key).offset? = some v) ∧
      ∀ points, p.finished? = some points →
        ∀ v, (key, v) ∈ points ↔ (p.session.resumePoint key).offset? = some v := by
  have ht := traced_of_run (traced_new cancelled marks) h ho hf
  have hn := resume_nodup_of_run (by simp [RoutedSession.new]) h
  refine ⟨ht.resumesAt key, fun v => mem_resumeOffsets hn, ?_⟩
  intro points hpoints v
  rw [SessionPlay.finished?] at hpoints
  split at hpoints
  next =>
    cases Option.some.inj hpoints
    exact mem_resumeOffsets hn
  next => simp at hpoints

private def order (partition offset : Int) : Record :=
  { topic := "orders", partition := partition, offset := offset }

/-- Two partitions: of one a record is in hand and one is lost behind it, and of the other a route was
abandoned. -/
def failingRun : List SessionEvent :=
  [.claim ("orders", 0), .fetch (order 0 5), .send (order 0 5), .fetch (order 1 10), .send (order 1 10),
    .ask 0, .take 0 (order 0 5), .ask 0, .fetch (order 0 9), .send (order 0 9), .take 0 (order 0 9),
    .ask 1, .take 1 (order 1 10), .ask 1, .finish 0 (.error .clientClosed), .fetch (order 0 12),
    .send (order 0 12), .fetch (order 1 20), .cancel, .giveUp (order 1 20), .abandon 1,
    .finish 1 (.ok ()), .stop]

theorem failing_session_resumes : ∃ p points,
    SessionPlay.run { session := RoutedSession.new false [] } failingRun = some p ∧
      p.finished? = some points ∧
      ResumesAt failingRun ("orders", 0) (some 9) ∧ (("orders", 0), 9) ∈ points ∧
      ResumesAt failingRun ("orders", 1) (some 11) ∧ (("orders", 1), 11) ∈ points := by
  obtain ⟨p, hp⟩ : ∃ p, SessionPlay.run { session := RoutedSession.new false [] } failingRun = some p :=
    ⟨_, rfl⟩
  have ho : Orderly failingRun := by
    simp [Orderly, OrderlyFrom, Fits, failingRun, routedTo, order, Record.place]
  have hf : ∀ key, SessionEvent.forget key ∉ failingRun := by simp [failingRun]
  have hdone : p.finished? = some p.session.resumeOffsets := by
    cases hp
    rfl
  have hzero : (p.session.resumePoint ("orders", 0)).offset? = some 9 := by
    cases hp
    rfl
  have hone : (p.session.resumePoint ("orders", 1)).offset? = some 11 := by
    cases hp
    rfl
  obtain ⟨hz, _, hzp⟩ := resume_points_exact hp ho hf ("orders", 0)
  obtain ⟨ho, _, hop⟩ := resume_points_exact hp ho hf ("orders", 1)
  exact ⟨p, _, hp, hdone, hzero ▸ hz, (hzp _ hdone 9).mpr hzero, hone ▸ ho, (hop _ hdone 11).mpr hone⟩

end TopicConsumer
