import Mathlib.Data.List.Nodup
import TopicConsumer.Proofs.LoopedSession
import TopicConsumer.Proofs.ResumePoints

namespace TopicConsumer

/-- The offsets routed to a partition are 0 or more, and grow. -/
structure Rising (events : List SessionEvent) : Prop where
  nonneg : ∀ r, SessionEvent.fetch r ∈ events → 0 ≤ r.offset
  sorted : ∀ key, (routedTo events key).Pairwise (·.offset < ·.offset)

theorem Rising.past {events : List SessionEvent} {e : SessionEvent} (h : Rising (events ++ [e])) : Rising events where
  nonneg r hr := h.nonneg r (List.mem_append_left _ hr)
  sorted key := by
    have hprefix : routedTo events key <+: routedTo (events ++ [e]) key := by
      rw [routedTo, routedTo, List.filterMap_append]
      exact List.prefix_append _ _
    exact (h.sorted key).sublist hprefix.sublist

/-- What was taken of a partition, and its resume point: at the first record routed, as long as none was taken, and
at the last one taken or right behind it. -/
structure PartitionLine (routed taken : List Record) (v : Int) : Prop where
  sorted : taken.Pairwise (·.offset < ·.offset)
  subset : ∀ t ∈ taken, t ∈ routed
  unrouted : routed = [] → v = -1
  untaken : taken = [] → ∀ first rest, routed = first :: rest → v = first.offset
  last : ∀ earlier t, taken = earlier ++ [t] → v = t.offset ∨ v = t.offset + 1

/-- What a claim in the hands of a handler holds: records beyond all that were taken, and perhaps the last of
these. -/
structure ClaimLine (routed taken : List Record) (c : HandledClaim) : Prop where
  sorted : c.claim.queue.Pairwise (·.offset < ·.offset)
  routed : ∀ q ∈ c.claim.queue, q ∈ routed
  above : ∀ t ∈ taken, ∀ q ∈ c.claim.queue, t.offset < q.offset
  inHand : ∀ o, c.claim.taken = some o → ∃ earlier t, taken = earlier ++ [t] ∧ t.offset = o

namespace PartitionLine

variable {routed taken : List Record} {v : Int}

theorem nonneg (h : PartitionLine routed taken v) (hr : ∀ r ∈ routed, 0 ≤ r.offset) (hn : routed ≠ []) : 0 ≤ v := by
  rcases List.eq_nil_or_concat taken with ht | ⟨earlier, t, ht⟩
  · obtain ⟨first, rest, hrouted⟩ := List.exists_cons_of_ne_nil hn
    rw [h.untaken ht first rest hrouted]
    exact hr first (by simp [hrouted])
  · rw [List.concat_eq_append] at ht
    have h0 : 0 ≤ t.offset := hr t (h.subset t (by simp [ht]))
    rcases h.last earlier t ht with hv | hv <;> omega

/-- A record that was never taken is at or behind the resume point exactly if none behind it was taken. -/
theorem untaken_iff (h : PartitionLine routed taken v) (hs : routed.Pairwise (·.offset < ·.offset)) {r : Record}
    (hr : r ∈ routed) (hn : r ∉ taken) : v ≤ r.offset ↔ ∀ t ∈ taken, t.offset < r.offset := by
  rcases List.eq_nil_or_concat taken with ht | ⟨earlier, t, ht⟩
  · obtain ⟨first, rest, hrouted⟩ := List.exists_cons_of_ne_nil (List.ne_nil_of_mem hr)
    rw [h.untaken ht first rest hrouted]
    rw [hrouted] at hr hs
    have hfirst : first.offset ≤ r.offset := by
      rcases List.mem_cons.mp hr with rfl | hr
      · exact Int.le_refl _
      · exact Int.le_of_lt ((List.pairwise_cons.mp hs).1 r hr)
    simp [ht, hfirst]
  · rw [List.concat_eq_append] at ht
    have htaken : t ∈ taken := by simp [ht]
    have hsorted := h.sorted
    rw [ht] at hsorted
    have hlast : ∀ x ∈ taken, x.offset ≤ t.offset := by
      intro x hx
      rw [ht] at hx
      rcases List.mem_append.mp hx with hx | hx
      · exact Int.le_of_lt ((List.pairwise_append.mp hsorted).2.2 x hx t List.mem_cons_self)
      · exact Int.le_of_eq (congrArg Record.offset (List.mem_singleton.mp hx))
    have hne : t.offset ≠ r.offset := by
      intro he
      have hoffsets : (routed.map (·.offset)).Nodup := List.pairwise_map.mpr (hs.imp Int.ne_of_lt)
      have hsame : t = r := List.inj_on_of_nodup_map hoffsets (h.subset t htaken) hr he
      exact hn (hsame ▸ htaken)
    have hv := h.last earlier t ht
    constructor
    · intro hle x hx
      have hxt := hlast x hx
      omega
    · intro hall
      have htr := hall t htaken
      omega

/-- One more record is routed, which counts if it is the first. -/
theorem fetch (h : PartitionLine routed taken v) (hr : ∀ r ∈ routed, 0 ≤ r.offset) (r : Record) :
    PartitionLine (routed ++ [r]) taken (if v = -1 then r.offset else v) where
  sorted := h.sorted
  subset t ht := List.mem_append_left _ (h.subset t ht)
  unrouted he := by simp at he
  untaken ht first rest he := by
    by_cases hempty : routed = []
    · rw [if_pos (h.unrouted hempty)]
      rw [hempty] at he
      simpa using congrArg Record.offset (List.cons.inj he).1
    · have hv := h.nonneg hr hempty
      obtain ⟨x, xs, hrouted⟩ := List.exists_cons_of_ne_nil hempty
      rw [if_neg (by omega), h.untaken ht x xs hrouted]
      rw [hrouted] at he
      exact congrArg Record.offset (List.cons.inj he).1
  last earlier t ht := by
    have htaken : t ∈ taken := by simp [ht]
    have hv := h.nonneg hr (List.ne_nil_of_mem (h.subset t htaken))
    rw [if_neg (by omega)]
    exact h.last earlier t ht

theorem take (h : PartitionLine routed taken v) {r : Record} (hr : r ∈ routed)
    (ha : ∀ t ∈ taken, t.offset < r.offset) : PartitionLine routed (taken ++ [r]) r.offset where
  sorted := by
    refine List.pairwise_append.mpr ⟨h.sorted, List.pairwise_singleton _ _, fun t ht x hx => ?_⟩
    rw [List.mem_singleton.mp hx]
    exact ha t ht
  subset t ht := by
    rcases List.mem_append.mp ht with ht | ht
    · exact h.subset t ht
    · exact List.mem_singleton.mp ht ▸ hr
  unrouted he := absurd he (List.ne_nil_of_mem hr)
  untaken he := by simp at he
  last earlier t he := by
    have hsame : r = t := by simpa using (List.append_inj' he rfl).2
    exact .inl (congrArg Record.offset hsame)

theorem ask (h : PartitionLine routed taken v) {earlier : List Record} {t : Record} (ht : taken = earlier ++ [t]) :
    PartitionLine routed taken (t.offset + 1) where
  sorted := h.sorted
  subset := h.subset
  unrouted he := by
    have hm : t ∈ routed := h.subset t (by simp [ht])
    simp [he] at hm
  untaken he := by simp [he] at ht
  last before x he := by
    rw [ht] at he
    have hsame : t = x := by simpa using (List.append_inj' he rfl).2
    exact .inr (congrArg (·.offset + 1) hsame)

end PartitionLine

namespace ClaimLine

variable {routed taken : List Record} {c d : HandledClaim} {r : Record}

theorem congr (h : ClaimLine routed taken c) (hq : d.claim.queue = c.claim.queue)
    (ht : d.claim.taken = c.claim.taken) : ClaimLine routed taken d := by
  constructor <;> simp only [hq, ht]
  exacts [h.sorted, h.routed, h.above, h.inHand]

theorem idle (hq : c.claim.queue = []) (ht : c.claim.taken = none) : ClaimLine routed taken c := by
  constructor <;> simp [hq, ht]

/-- A record beyond all others is queued. -/
theorem push (h : ClaimLine routed taken c) (hr : r ∈ routed) (ht : ∀ t ∈ taken, t.offset < r.offset)
    (hb : ∀ q ∈ c.claim.queue, q.offset < r.offset) (hq : d.claim.queue = c.claim.queue ++ [r])
    (hk : d.claim.taken = c.claim.taken) : ClaimLine routed taken d where
  sorted := by
    rw [hq]
    refine List.pairwise_append.mpr ⟨h.sorted, List.pairwise_singleton _ _, fun x hx y hy => ?_⟩
    rw [List.mem_singleton.mp hy]
    exact hb x hx
  routed x hx := by
    rw [hq] at hx
    rcases List.mem_append.mp hx with hx | hx
    · exact h.routed x hx
    · exact List.mem_singleton.mp hx ▸ hr
  above t htaken x hx := by
    rw [hq] at hx
    rcases List.mem_append.mp hx with hx | hx
    · exact h.above t htaken x hx
    · rw [List.mem_singleton.mp hx]
      exact ht t htaken
  inHand := hk ▸ h.inHand

theorem pop (h : ClaimLine routed taken c) (hq : c.claim.queue = r :: d.claim.queue)
    (hk : d.claim.taken = some r.offset) : ClaimLine routed (taken ++ [r]) d where
  sorted := (List.pairwise_cons.mp (hq ▸ h.sorted)).2
  routed x hx := h.routed x (by simp [hq, hx])
  above t ht x hx := by
    rcases List.mem_append.mp ht with ht | ht
    · exact h.above t ht x (by simp [hq, hx])
    · rw [List.mem_singleton.mp ht]
      exact (List.pairwise_cons.mp (hq ▸ h.sorted)).1 x hx
  inHand o ho := ⟨taken, r, rfl, Option.some.inj (hk.symm.trans ho)⟩

end ClaimLine

/-- What has happened in a session whose claims may be given back. -/
structure Lined (events : List SessionEvent) (p : SessionPlay) (joined : List Nat) : Prop extends
    Respawned p joined where
  points : ∀ key, PartitionLine (routedTo events key) (takenFrom events key) (p.session.resumePoint key).value
  claims : ∀ (i : Nat) c, p.session.claims[i]? = some c → c.result = none →
    ClaimLine (routedTo events c.claim.key) (takenFrom events c.claim.key) c
  pending : ∀ r, p.routing = some r → r ∈ routedTo events r.place ∧
    (∀ t ∈ takenFrom events r.place, t.offset < r.offset) ∧
    ∀ (i : Nat) c, p.session.claims[i]? = some c → c.result = none → c.claim.key = r.place →
      ∀ q ∈ c.claim.queue, q.offset < r.offset

namespace Lined

variable {events : List SessionEvent} {p q : SessionPlay} {joined : List Nat}

theorem new (cancelled : Bool) (marks : Watermarks) : Lined [] { session := RoutedSession.new cancelled marks } [] where
  toRespawned := .new cancelled marks
  points key := by
    constructor <;> simp [routedTo, takenFrom, RoutedSession.new, RoutedSession.resumePoint, Table.get?]
  claims := by simp [RoutedSession.new]
  pending := by simp

theorem quiet (h : Lined events p joined) {e : SessionEvent} {later : List Nat} (hw : Respawned q later)
    (hf : ∀ r, e ≠ .fetch r) (ht : ∀ i r, e ≠ .take i r)
    (hp : ∀ key, q.session.resumePoint key = p.session.resumePoint key)
    (hr : ∀ r, q.routing = some r → p.routing = some r)
    (hc : ∀ (i : Nat) c, q.session.claims[i]? = some c → c.result = none →
      c.claim.queue = [] ∧ c.claim.taken = none ∨ ∃ d, p.session.claims[i]? = some d ∧ d.result = none ∧
        c.claim.key = d.claim.key ∧ c.claim.queue = d.claim.queue ∧ c.claim.taken = d.claim.taken) :
    Lined (events ++ [e]) q later where
  toRespawned := hw
  points key := by
    rw [routedTo_other hf, takenFrom_other ht, hp]
    exact h.points key
  claims i c hi hres := by
    rw [routedTo_other hf, takenFrom_other ht]
    rcases hc i c hi hres with ⟨hqueue, htaken⟩ | ⟨d, hd, hdr, hkey, hqueue, htaken⟩
    · exact .idle hqueue htaken
    · rw [hkey]
      exact (h.claims i d hd hdr).congr hqueue htaken
  pending r hq := by
    rw [routedTo_other hf, takenFrom_other ht]
    obtain ⟨hrouted, htaken, hqueued⟩ := h.pending r (hr r hq)
    refine ⟨hrouted, htaken, fun i c hi hres hkey => ?_⟩
    rcases hc i c hi hres with ⟨hqueue, _⟩ | ⟨d, hd, hdr, hk, hqueue, _⟩
    · simp [hqueue]
    · rw [hqueue]
      exact hqueued i d hd hdr (hk ▸ hkey)

theorem quiet_set (h : Lined events p joined) {e : SessionEvent} {i : Nat} {c d : HandledClaim}
    (hw : Respawned q joined) (hc : p.session.claims[i]? = some c) (hf : ∀ r, e ≠ .fetch r)
    (ht : ∀ i r, e ≠ .take i r) (hq : q = { p with session := p.session.setClaim i d })
    (hkey : d.claim.key = c.claim.key) (hqueue : d.claim.queue = c.claim.queue)
    (htaken : d.claim.taken = c.claim.taken) (hr : d.result = none → c.result = none) :
    Lined (events ++ [e]) q joined := by
  subst hq
  refine h.quiet hw hf ht (fun _ => rfl) (fun _ hr => hr) fun j x hx hres => .inr ?_
  rcases RoutedSession.setClaim_getElem? hx with ⟨rfl, rfl⟩ | ⟨_, hx⟩
  · exact ⟨c, hc, hr hres, hkey, hqueue, htaken⟩
  · exact ⟨x, hx, hres, rfl, rfl, rfl⟩

theorem claim (h : Lined events p joined) {key : PartitionKey} (hs : p.step? (.claim key) = some q) :
    Lined (events ++ [.claim key]) q joined := by
  have hw := h.toRespawned.step hs (by simp)
  obtain ⟨_, _, rfl⟩ := p.step_claim hs
  refine h.quiet hw (by simp) (by simp) (fun k => RoutedSession.resumePoint_claim _ _ _) (fun _ hr => hr) ?_
  intro i c hc hres
  rcases RoutedSession.claim_getElem? hc with hc | ⟨_, rfl⟩
  · exact .inr ⟨c, hc, hres, rfl, rfl, rfl⟩
  · exact .inl ⟨rfl, rfl⟩

theorem fetch (h : Lined events p joined) {r : Record} (ho : Rising (events ++ [.fetch r]))
    (hs : p.step? (.fetch r) = some q) : Lined (events ++ [.fetch r]) q joined := by
  have hw := h.toRespawned.step hs (by simp)
  obtain ⟨_, hidle, rfl⟩ := p.step_fetch hs
  have htaken : ∀ key, takenFrom (events ++ [.fetch r]) key = takenFrom events key := takenFrom_other (by simp)
  have hrouted : routedTo (events ++ [.fetch r]) r.place = routedTo events r.place ++ [r] := by simp [routedTo_fetch]
  have hother : ∀ key, key ≠ r.place → routedTo (events ++ [.fetch r]) key = routedTo events key := fun key hk => by
    simp [routedTo_fetch, Ne.symm hk]
  have hgrows : ∀ key, ∀ x ∈ routedTo events key, x ∈ routedTo (events ++ [.fetch r]) key := fun key x hx => by
    rw [routedTo_fetch]
    exact List.mem_append_left _ hx
  have hnew : ∀ x ∈ routedTo events r.place, x.offset < r.offset := by
    have hsorted := ho.sorted r.place
    rw [hrouted] at hsorted
    exact fun x hx => (List.pairwise_append.mp hsorted).2.2 x hx r List.mem_cons_self
  have hnonneg : ∀ x ∈ routedTo events r.place, 0 ≤ x.offset := fun x hx =>
    ho.past.nonneg x (mem_routedTo.mp hx).1
  have hcases : ∀ (i : Nat) c, (p.session.fetch r).claims[i]? = some c → p.session.claims[i]? = some c ∨
      c.claim.queue = [] ∧ c.claim.taken = none := by
    intro i c hc
    rcases RoutedSession.claim_getElem? (s := p.session) hc with hc | ⟨_, rfl⟩
    · exact .inl hc
    · exact .inr ⟨rfl, rfl⟩
  refine ⟨hw, fun key => ?_, fun i c hc hres => ?_, fun x hx => ?_⟩
  · rw [htaken, RoutedSession.resumePoint_fetch]
    split
    next hk =>
      subst hk
      have hline := (h.points r.place).fetch hnonneg r
      rw [hrouted, ResumePoint.routed]
      split
      next hv => rwa [if_pos hv] at hline
      next hv => rwa [if_neg hv] at hline
    next hk =>
      rw [hother key hk]
      exact h.points key
  · rw [htaken]
    rcases hcases i c hc with hc | ⟨hqueue, hnone⟩
    · have hline := h.claims i c hc hres
      exact ⟨hline.sorted, fun x hx => hgrows _ x (hline.routed x hx), hline.above, hline.inHand⟩
    · exact .idle hqueue hnone
  · cases Option.some.inj hx
    rw [htaken]
    refine ⟨by simp [hrouted], fun t ht => hnew t ((h.points r.place).subset t ht), fun i c hc hres hk x hx => ?_⟩
    rcases hcases i c hc with hc | ⟨hqueue, _⟩
    · exact hnew x (hk ▸ (h.claims i c hc hres).routed x hx)
    · simp [hqueue] at hx

theorem send (h : Lined events p joined) {r : Record} (hs : p.step? (.send r) = some q) :
    Lined (events ++ [.send r]) q joined := by
  have hw := h.toRespawned.step hs (by simp)
  obtain ⟨hr, _, t, ht, rfl⟩ := p.step_send hs
  obtain ⟨hrouted, htaken, hqueued⟩ := h.pending r hr
  have hpoint : ∀ key, t.resumePoint key = p.session.resumePoint key := fun key => by
    rw [RoutedSession.resumePoint, RoutedSession.resume_sendNow ht, RoutedSession.resumePoint]
  obtain rfl | ⟨i, c, hi, hc, rfl⟩ := RoutedSession.sendNow_cases ht
  · exact h.quiet hw (by simp) (by simp) hpoint (by simp) fun j d hd hres => .inr ⟨d, hd, hres, rfl, rfl, rfl⟩
  · obtain ⟨d, hd, hkey⟩ := h.found _ i hi
    cases Option.some.inj (hd.symm.trans hc)
    refine ⟨hw, fun key => ?_, fun j x hx hres => ?_, by simp⟩
    · rw [routedTo_other (by simp), takenFrom_other (by simp), hpoint]
      exact h.points key
    · rw [routedTo_other (by simp), takenFrom_other (by simp)]
      rcases RoutedSession.setClaim_getElem? hx with ⟨rfl, rfl⟩ | ⟨_, hx⟩
      · refine (h.claims j c hc hres).push ?_ ?_ (hqueued j c hc hres hkey) rfl rfl
        · exact hkey.symm ▸ hrouted
        · exact hkey.symm ▸ htaken
      · exact h.claims j x hx hres

theorem ask (h : Lined events p joined) {i : Nat} (hs : p.step? (.ask i) = some q) :
    Lined (events ++ [.ask i]) q joined := by
  have hw := h.toRespawned.step hs (by simp)
  obtain ⟨c, point, hc, hres, _, rfl, hpoint⟩ := p.step_ask hs
  have hline := h.claims i c hc hres
  refine ⟨hw, fun key => ?_, fun j x hx hx' => ?_, fun r hr => ?_⟩
  · rw [routedTo_other (by simp), takenFrom_other (by simp), RoutedSession.resumePoint_setPoint]
    split
    next hk =>
      subst hk
      obtain ⟨_, rfl⟩ | ⟨o, ho, rfl⟩ := hpoint
      · exact h.points c.claim.key
      · obtain ⟨earlier, t, ht, rfl⟩ := hline.inHand o ho
        exact (h.points c.claim.key).ask ht
    next => exact h.points key
  · rw [routedTo_other (by simp), takenFrom_other (by simp)]
    rcases RoutedSession.setClaim_getElem? hx with ⟨rfl, rfl⟩ | ⟨_, hx⟩
    · exact ⟨hline.sorted, hline.routed, hline.above, by simp⟩
    · exact h.claims j x hx hx'
  · rw [routedTo_other (by simp), takenFrom_other (by simp)]
    obtain ⟨hrouted, htaken, hqueued⟩ := h.pending r hr
    refine ⟨hrouted, htaken, fun j x hx hx' hk => ?_⟩
    rcases RoutedSession.setClaim_getElem? hx with ⟨rfl, rfl⟩ | ⟨_, hx⟩
    · exact hqueued j c hc hres hk
    · exact hqueued j x hx hx' hk

theorem take (h : Lined events p joined) {i : Nat} {r : Record} (hs : p.step? (.take i r) = some q) :
    Lined (events ++ [.take i r]) q joined := by
  have hw := h.toRespawned.step hs (by simp)
  obtain ⟨c, rest, hc, hres, _, hqueue, rfl⟩ := p.step_take hs
  have hline := h.claims i c hc hres
  have hmem : r ∈ c.claim.queue := by simp [hqueue]
  have hplace : r.place = c.claim.key := (mem_routedTo.mp (hline.routed r hmem)).2
  have htaken : takenFrom (events ++ [.take i r]) c.claim.key = takenFrom events c.claim.key ++ [r] := by
    simp [takenFrom_take, hplace]
  have hother : ∀ key, key ≠ c.claim.key → takenFrom (events ++ [.take i r]) key = takenFrom events key :=
    fun key hk => by simp [takenFrom_take, hplace, Ne.symm hk]
  refine ⟨hw, fun key => ?_, fun j x hx hx' => ?_, fun y hy => ?_⟩
  · rw [routedTo_other (by simp), RoutedSession.resumePoint_setPoint]
    split
    next hk =>
      subst hk
      rw [htaken]
      exact (h.points c.claim.key).take (hline.routed r hmem) fun t ht => hline.above t ht r hmem
    next hk =>
      rw [hother key hk]
      exact h.points key
  · rw [routedTo_other (by simp)]
    rcases RoutedSession.setClaim_getElem? hx with ⟨rfl, rfl⟩ | ⟨hj, hx⟩
    · rw [htaken]
      exact hline.pop hqueue rfl
    -- No other claim of the partition is in the hands of a handler.
    · have hne : x.claim.key ≠ c.claim.key := fun he => hj (h.single j i x c hx hc hx' hres he)
      rw [hother _ hne]
      exact h.claims j x hx hx'
  · rw [routedTo_other (by simp)]
    obtain ⟨hrouted, hbelow, hqueued⟩ := h.pending y hy
    refine ⟨hrouted, fun t ht => ?_, fun j x hx hx' hk => ?_⟩
    · by_cases hk : y.place = c.claim.key
      · rw [hk, htaken] at ht
        rcases List.mem_append.mp ht with ht | ht
        · exact hbelow t (hk ▸ ht)
        · rw [List.mem_singleton.mp ht]
          exact hqueued i c hc hres hk.symm r hmem
      · rw [hother _ hk] at ht
        exact hbelow t ht
    · rcases RoutedSession.setClaim_getElem? hx with ⟨rfl, rfl⟩ | ⟨_, hx⟩
      · exact fun z hz => hqueued j c hc hres hk z (by simp [hqueue, hz])
      · exact hqueued j x hx hx' hk

theorem step (h : Lined events p joined) {e : SessionEvent} (ho : Rising (events ++ [e])) (hs : p.step? e = some q)
    (hf : ∀ key, e ≠ .forget key) : Lined (events ++ [e]) q joined := by
  have hw := h.toRespawned.step hs hf
  cases e with
  | claim key => exact h.claim hs
  | fetch r => exact h.fetch ho hs
  | send r => exact h.send hs
  | ask i => exact h.ask hs
  | take i r => exact h.take hs
  | giveUp r =>
    obtain ⟨_, rfl⟩ := p.step_giveUp hs
    exact h.quiet hw (by simp) (by simp) (fun _ => rfl) (by simp) fun i c hc hres => .inr ⟨c, hc, hres, rfl, rfl, rfl⟩
  | abandon i =>
    obtain ⟨c, hc, _, hq⟩ := p.step_abandon hs
    exact h.quiet_set hw hc (by simp) (by simp) hq rfl rfl rfl id
  | finish i result =>
    obtain ⟨c, hc, _, hq⟩ := p.step_finish hs
    exact h.quiet_set hw hc (by simp) (by simp) hq rfl rfl rfl (by simp)
  | cancel =>
    cases Option.some.inj hs
    exact h.quiet hw (by simp) (by simp) (fun _ => rfl) (fun _ hr => hr) fun i c hc hres =>
      .inr ⟨c, hc, hres, rfl, rfl, rfl⟩
  | forget key => exact absurd rfl (hf key)
  | stop =>
    obtain ⟨_, _, rfl⟩ := p.step_stop hs
    refine h.quiet hw (by simp) (by simp) (fun _ => rfl) (fun _ hr => hr) fun i c hc hres => .inr ?_
    simp only [RoutedSession.stop, List.getElem?_map, Option.map_eq_some_iff] at hc
    obtain ⟨d, hd, rfl⟩ := hc
    exact ⟨d, hd, hres, rfl, rfl, rfl⟩

end Lined

namespace LoopedSession

variable {l m : LoopedSession}

theorem Step.lined (hs : Step l m) (h : Lined l.history l.play l.joined) (ho : Rising m.history) :
    Lined m.history m.play m.joined := by
  cases hs with
  | happened hf hp => exact h.step ho hp hf
  | @joined i c result hc hr hi hopen hidle =>
    have hw := h.forget hopen hc (by simp [hr]) hi
    exact h.quiet hw (by simp) (by simp) (fun _ => rfl) (fun _ hr => hr) fun j d hd hres =>
      .inr ⟨d, hd, hres, rfl, rfl, rfl⟩
  | ended hl hm => exact ⟨h.more hm hl, h.points, h.claims, h.pending⟩

theorem Step.history (hs : Step l m) : m.history = l.history ∨ ∃ e, m.history = l.history ++ [e] := by
  cases hs with
  | happened | joined => exact .inr ⟨_, rfl⟩
  | ended => exact .inl rfl

theorem Step.resume_nodup (hs : Step l m) (h : (l.play.session.resume.map Prod.fst).Nodup) :
    (m.play.session.resume.map Prod.fst).Nodup := by
  cases hs with
  | happened _ hp => exact resume_nodup_of_step hp h
  | joined | ended => exact h

theorem run_concat (l : LoopedSession) (acts : List LoopAct) (a : LoopAct) :
    l.run (acts ++ [a]) = (l.run acts).bind (·.act? a) := by
  induction acts generalizing l with
  | nil => simp [run]
  | cons b rest ih =>
    simp only [List.cons_append, run, Option.bind_assoc]
    exact congrArg _ (funext fun next => ih next)

theorem lined_of_run {cancelled : Bool} {marks : Watermarks} {acts : List LoopAct}
    (h : (new cancelled marks).run acts = some l) (ho : Rising l.history) : Lined l.history l.play l.joined := by
  induction acts using List.reverseRecOn generalizing l with
  | nil => exact Option.some.inj h ▸ Lined.new cancelled marks
  | append_singleton acts a ih =>
    rw [run_concat] at h
    obtain ⟨before, hrun, ha⟩ := Option.bind_eq_some_iff.mp h
    have hs := act?_cases ha
    -- The history only grows, and what is rising was so before.
    have hbefore : Rising before.history := by
      obtain he | ⟨e, he⟩ := hs.history
      · exact he ▸ ho
      · rw [he] at ho
        exact ho.past
    exact hs.lined (ih hrun hbefore) ho

theorem resume_nodup_of_run {cancelled : Bool} {marks : Watermarks} {acts : List LoopAct}
    (h : (new cancelled marks).run acts = some l) : (l.play.session.resume.map Prod.fst).Nodup := by
  induction acts using List.reverseRecOn generalizing l with
  | nil => exact Option.some.inj h ▸ List.nodup_nil
  | append_singleton acts a ih =>
    rw [run_concat] at h
    obtain ⟨before, hrun, ha⟩ := Option.bind_eq_some_iff.mp h
    exact (act?_cases ha).resume_nodup (ih hrun)

end LoopedSession

/-- A session that failed reads each partition again from one place, if a record was routed to it. A record that no
handler took is read again exactly if no handler took a later one of its partition. -/
theorem rewinds_to_untaken {cancelled : Bool} {marks : Watermarks} {acts : List LoopAct} {l : LoopedSession}
    {points : List (PartitionKey × Int)} (h : (LoopedSession.new cancelled marks).run acts = some l)
    (ho : Rising l.history) (hp : l.rewinds? = some points) {r : Record} (hr : SessionEvent.fetch r ∈ l.history)
    (hn : ∀ i, SessionEvent.take i r ∉ l.history) :
    ∃ v, (∀ w, (r.place, w) ∈ points ↔ w = v) ∧
      (v ≤ r.offset ↔ ∀ i t, SessionEvent.take i t ∈ l.history → t.place = r.place → t.offset < r.offset) := by
  have hline := (LoopedSession.lined_of_run h ho).points r.place
  have hrouted : r ∈ routedTo l.history r.place := mem_routedTo.mpr ⟨hr, rfl⟩
  have huntaken : r ∉ takenFrom l.history r.place := fun hm => by
    obtain ⟨⟨i, hi⟩, _⟩ := mem_takenFrom.mp hm
    exact hn i hi
  have hnonneg : ∀ x ∈ routedTo l.history r.place, 0 ≤ x.offset := fun x hx => ho.nonneg x (mem_routedTo.mp hx).1
  have hvalue : (l.play.session.resumePoint r.place).offset? = some (l.play.session.resumePoint r.place).value :=
    if_pos (hline.nonneg hnonneg (List.ne_nil_of_mem hrouted))
  have hpoints : points = l.play.session.resumeOffsets := by
    unfold LoopedSession.rewinds? at hp
    split at hp
    next =>
      unfold SessionPlay.finished? at hp
      split at hp <;> simp at hp
      exact hp.symm
    next => simp at hp
  refine ⟨(l.play.session.resumePoint r.place).value, fun w => ?_, ?_⟩
  · rw [hpoints, mem_resumeOffsets (LoopedSession.resume_nodup_of_run h), hvalue, Option.some.injEq]
    exact eq_comm
  · rw [hline.untaken_iff (ho.sorted r.place) hrouted huntaken]
    constructor
    · exact fun hall i t ht hplace => hall t (mem_takenFrom.mpr ⟨⟨i, ht⟩, hplace⟩)
    · intro hall t ht
      obtain ⟨⟨i, hi⟩, hplace⟩ := mem_takenFrom.mp ht
      exact hall i t hi hplace

private def shipment (offset : Int) : Record := { topic := "orders", partition := 0, offset := offset }

/-- A handler takes a record and returns well, with two more queued for its claim. The next claim of the partition
gets two later ones, of which its handler takes the first before the session fails. -/
def strandedHistory : List SessionEvent :=
  let route (offset : Int) : List SessionEvent := [.fetch (shipment offset), .send (shipment offset)]
  route 10 ++ [.ask 0, .take 0 (shipment 10)] ++ route 11 ++ route 12 ++ [.finish 0 (.ok ()), .forget ("orders", 0)] ++
    route 13 ++ [.ask 1, .take 1 (shipment 13)] ++ route 14 ++ [.stop, .finish 1 (.ok ())]

def strandedActs : List LoopAct :=
  let act : SessionEvent → LoopAct
    | .forget _ => .join 0
    | e => .event e
  (strandedHistory.take 16).map act ++ .quit (.failed (.broker "broken")) :: (strandedHistory.drop 16).map act

theorem rising_strandedHistory : Rising strandedHistory where
  nonneg r hr := by
    simp only [strandedHistory, List.cons_append, List.nil_append, List.mem_cons, SessionEvent.fetch.injEq,
      reduceCtorEq, false_or, List.not_mem_nil, or_false] at hr
    rcases hr with rfl | rfl | rfl | rfl | rfl <;> decide
  sorted key := by
    by_cases hk : ("orders", 0) = key <;>
      simp [strandedHistory, routedTo, shipment, Record.place, hk]

/-- The record behind the last one taken is read again, and those that were lost before it are not. -/
theorem lost_records_not_read_again : ∃ l points v, (LoopedSession.new false []).run strandedActs = some l ∧
    l.rewinds? = some points ∧ (∀ w, (("orders", 0), w) ∈ points ↔ w = v) ∧ v ≤ 14 ∧ ¬ v ≤ 11 := by
  obtain ⟨l, hl⟩ : ∃ l, (LoopedSession.new false []).run strandedActs = some l := ⟨_, rfl⟩
  have hhistory : l.history = strandedHistory := by
    cases hl
    rfl
  obtain ⟨points, hpoints⟩ : ∃ points, l.rewinds? = some points := by
    cases hl
    exact ⟨_, rfl⟩
  have ho : Rising l.history := hhistory ▸ rising_strandedHistory
  obtain ⟨v, hv, hlater⟩ := rewinds_to_untaken hl ho hpoints (r := shipment 14)
    (by simp [hhistory, strandedHistory]) (by simp [hhistory, strandedHistory, shipment])
  obtain ⟨w, hw, hlost⟩ := rewinds_to_untaken hl ho hpoints (r := shipment 11)
    (by simp [hhistory, strandedHistory]) (by simp [hhistory, strandedHistory, shipment])
  have hsame : w = v := (hv w).mp ((hw w).mpr rfl)
  refine ⟨l, points, v, hl, hpoints, hv, hlater.mpr fun i t ht _ => ?_, fun hle => ?_⟩
  · simp [hhistory, strandedHistory, shipment] at ht
    rcases ht with ⟨_, rfl⟩ | ⟨_, rfl⟩ <;> decide
  · have hall := (hsame ▸ hlost).mp hle 1 (shipment 13) (by simp [hhistory, strandedHistory]) rfl
    simp [shipment] at hall

/-- Records were fetched before the place from which a partition is read again, and no handler ever took them. -/
theorem later_claim_passes_over : ∃ l points r v, (LoopedSession.new false []).run strandedActs = some l ∧
    Rising l.history ∧ l.rewinds? = some points ∧ SessionEvent.fetch r ∈ l.history ∧
    (∀ i, SessionEvent.take i r ∉ l.history) ∧ (r.place, v) ∈ points ∧ r.offset < v := by
  obtain ⟨l, hl⟩ : ∃ l, (LoopedSession.new false []).run strandedActs = some l := ⟨_, rfl⟩
  have hhistory : l.history = strandedHistory := by
    cases hl
    rfl
  have hpoints : l.rewinds? = some l.play.session.resumeOffsets := by
    cases hl
    rfl
  have hpoint : (l.play.session.resumePoint (shipment 11).place).offset? = some 13 := by
    cases hl
    rfl
  have hm := (mem_resumeOffsets (LoopedSession.resume_nodup_of_run hl)).mpr hpoint
  refine ⟨l, _, shipment 11, 13, hl, hhistory ▸ rising_strandedHistory, hpoints, ?_, ?_, hm, by decide⟩
  · simp [hhistory, strandedHistory]
  · simp [hhistory, strandedHistory, shipment]

end TopicConsumer
