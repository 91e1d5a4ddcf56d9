import Mathlib.Data.List.Nodup
import TopicConsumer.Proofs.ClaimProgress

namespace TopicConsumer

open Environment

/-- The `k` offsets from a first one on. -/
def consecutive (first : Int) (k : Nat) : List Int := (List.range k).map fun n : Nat => first + n

namespace SessionNote

variable {α : Type}

def keys (b : SessionNote α) : List PartitionKey := b.claimed.map Prod.fst

def offsets (b : SessionNote α) (key : PartitionKey) : List Int :=
  (b.sent.filter (·.place = key)).map (·.offset)

/-- What a session queued: of each partition that it claimed, once, the messages for one offset after the
other. -/
structure Exact (logs : Contents) (u : Subscription α) (b : SessionNote α) : Prop where
  once : b.keys.Nodup
  topic : ∀ key ∈ b.keys, key.1 = u.topic
  delivers : ∀ m ∈ b.sent, m.place ∈ b.keys ∧ u.Delivers logs m m.place m.offset
  consecutive : ∀ (key : PartitionKey) (first : Int), (key, first) ∈ b.claimed →
    ∃ k, b.offsets key = consecutive first k

/-- What a session has still to open: its topic, or partitions of it that are not claimed yet. -/
def Opens (b : SessionNote α) (topic : String) (todo : List Opening) : Prop :=
  (todo = [.topic topic] ∧ b.claimed = []) ∨
    ∃ more : List PartitionKey, todo = more.map .partition ∧ (b.keys ++ more).Nodup ∧
      ∀ key ∈ more, key.1 = topic

end SessionNote

/-- What the notes of a run's latest session say about the session while it runs. -/
structure Session.Follows (logs : Contents) (u : Subscription α) (note : RunNote α) (s : Session α) :
    Prop where
  group : s.group = u.group
  start : s.start = note.start
  claims : ∀ (i : Nat) (claim : Claim α), s.claims[i]? = some claim →
    ∃ key first, note.current.claimed[i]? = some (key, first) ∧
      claim.Follows logs u key (first + (note.current.offsets key).length)
  opening : ∀ todo, s.phase = .opening todo →
    s.claims.length = note.current.claimed.length ∧ note.current.Opens u.topic todo
  unscripted : ∀ feeds ending, s.phase ≠ .script feeds ending
  ended : ∀ result, s.phase = .ended result → ∀ claim ∈ s.claims, claim.isOver = true

variable {α : Type} {topic : String} {logs known : Contents} {env after : Environment} {u : Subscription α}
  {note : RunNote α} {run next : GroupRun α}

theorem consecutive_concat (first : Int) (k : Nat) :
    consecutive first k ++ [first + k] = consecutive first (k + 1) := by
  simp [consecutive, List.range_succ]

theorem mem_consecutive {first : Int} {k : Nat} {v : Int} :
    v ∈ consecutive first k ↔ first ≤ v ∧ v < first + k := by
  simp only [consecutive, List.mem_map, List.mem_range]
  constructor
  · rintro ⟨n, hn, rfl⟩
    omega
  · rintro ⟨hl, hr⟩
    exact ⟨(v - first).toNat, by omega, by omega⟩

namespace SessionNote

variable {b : SessionNote α}

@[simp]
theorem extend_nil (b : SessionNote α) : b.extend [] [] = b := by simp [extend]

theorem offsets_send (b : SessionNote α) (m : Message α) (key : PartitionKey) :
    (b.extend [] [m]).offsets key = b.offsets key ++ if m.place = key then [m.offset] else [] := by
  by_cases h : m.place = key <;> simp [offsets, extend, h]

theorem offsets_claim (b : SessionNote α) (claimed : List (PartitionKey × Int)) (key : PartitionKey) :
    (b.extend claimed []).offsets key = b.offsets key := by
  simp [offsets, extend]

theorem Exact.keep (h : b.Exact logs u)
    (hk : ∀ (key : PartitionKey) (offset : Int) (payload : Bytes),
      logs key offset payload → known key offset payload) : b.Exact known u where
  once := h.once
  topic := h.topic
  delivers m hm := by
    obtain ⟨hp, hd⟩ := h.delivers m hm
    exact ⟨hp, hd.keep (hk _ _)⟩
  consecutive := h.consecutive

theorem exact_new (logs : Contents) (u : Subscription α) : ({} : SessionNote α).Exact logs u where
  once := List.nodup_nil
  topic _ h := by simp [keys] at h
  delivers _ h := by simp at h
  consecutive _ _ h := by simp at h

theorem Exact.send (h : b.Exact logs u) {key : PartitionKey} {first : Int}
    (hc : (key, first) ∈ b.claimed) {m : Message α}
    (hm : u.Delivers logs m key (first + (b.offsets key).length)) : (b.extend [] [m]).Exact logs u := by
  have hkeys : (b.extend [] [m]).keys = b.keys := by simp [keys, extend]
  refine ⟨hkeys ▸ h.once, hkeys ▸ h.topic, ?_, ?_⟩
  · intro x hx
    rw [hkeys]
    rcases List.mem_append.mp hx with hx | hx
    · exact h.delivers x hx
    · cases List.mem_singleton.mp hx
      rw [hm.place, hm.offset]
      exact ⟨List.mem_map_of_mem hc, hm⟩
  · intro other start ho
    have ho : (other, start) ∈ b.claimed := by simpa [extend] using ho
    obtain ⟨k, hk⟩ := h.consecutive other start ho
    rw [offsets_send, hm.place, hm.offset]
    split
    next he =>
      subst he
      have hg := (Table.mem_iff_get? h.once).mp hc
      cases Option.some.inj (hg.symm.trans ((Table.mem_iff_get? h.once).mp ho))
      rw [hk]
      refine ⟨k + 1, ?_⟩
      rw [← consecutive_concat]
      simp [TopicConsumer.consecutive]
    next => exact ⟨k, by rw [hk, List.append_nil]⟩

theorem Exact.offsets_of_new (h : b.Exact logs u) {key : PartitionKey}
    (hn : key ∉ b.keys) : b.offsets key = [] := by
  simp only [offsets, List.map_eq_nil_iff, List.filter_eq_nil_iff, decide_eq_true_eq]
  rintro m hm rfl
  exact hn (h.delivers m hm).1

theorem Exact.claim (h : b.Exact logs u) {key : PartitionKey} (hn : key ∉ b.keys)
    (ht : key.1 = u.topic) (first : Int) : (b.extend [(key, first)] []).Exact logs u := by
  have hkeys : (b.extend [(key, first)] []).keys = b.keys.concat key := by simp [keys, extend]
  refine ⟨hkeys ▸ h.once.concat hn, ?_, ?_, ?_⟩
  · intro other ho
    rw [hkeys, List.concat_eq_append, List.mem_append, List.mem_singleton] at ho
    rcases ho with ho | rfl
    · exact h.topic other ho
    · exact ht
  · intro m hm
    obtain ⟨hp, hd⟩ := h.delivers m (by simpa [extend] using hm)
    exact ⟨by rw [hkeys, List.concat_eq_append]; exact List.mem_append_left _ hp, hd⟩
  · intro other start ho
    rw [offsets_claim]
    rcases List.mem_append.mp ho with ho | ho
    · exact h.consecutive other start ho
    · cases List.mem_singleton.mp ho
      exact ⟨0, h.offsets_of_new hn⟩

theorem Opens.of_topic {rest : List Opening} {name : String} (h : b.Opens topic (.topic name :: rest)) :
    name = topic ∧ rest = [] ∧ b.claimed = [] := by
  rcases h with ⟨ht, hc⟩ | ⟨more, hm, _⟩
  · cases ht
    exact ⟨rfl, rfl, hc⟩
  · cases more <;> simp at hm

theorem Opens.of_partition {rest : List Opening} {key : PartitionKey}
    (h : b.Opens topic (.partition key :: rest)) :
    key.1 = topic ∧ ∃ more : List PartitionKey, rest = more.map .partition ∧ (b.keys ++ key :: more).Nodup ∧
      ∀ key ∈ more, key.1 = topic := by
  rcases h with ⟨ht, _⟩ | ⟨more, hm, hn, hk⟩
  · simp at ht
  · cases more with
    | nil => simp at hm
    | cons first more =>
      cases hm
      exact ⟨hk _ (by simp), more, rfl, hn, fun other ho => hk other (by simp [ho])⟩

end SessionNote

namespace RunNote

theorem observe_idle (hs : next.isServing = false) (hm : next.messages = run.messages) :
    note.observe env run next = note := by
  have hc : next.claims = [] := by
    unfold GroupRun.isServing at hs
    unfold GroupRun.claims
    cases hl : next.loop <;> simp [hl] at hs ⊢
  simp [observe, made, hs, hc, hm]

theorem observe_serving {s later : Session α} (hs : run.loop = .serving s) (hl : next.loop = .serving later) :
    note.observe env run next = { note with
      current := note.current.extend (note.made env.broker run.group s.claims later.claims)
        (next.messages.items.drop run.messages.items.length) } := by
  simp [observe, GroupRun.isServing, GroupRun.claims, hs, hl]

theorem observe_begun {s : Session α} (ht : run.loop = .top) (hc : s.claims = []) :
    note.observe env run { run with loop := .serving s } =
      { note with past := note.past ++ [note.current], current := {} } := by
  simp [observe, made, GroupRun.isServing, GroupRun.claims, ht, hc]

theorem sent_current (current : SessionNote α) :
    ({ note with current := current } : RunNote α).sent = note.past.flatMap (·.sent) ++ current.sent := by
  simp [sent, sessions]

end RunNote

namespace Session

/-- A session of a member of a group opens the partitions of the topics. -/
theorem begin_joined {client : Nat} {group : String} {start : StartOffset} {topics : List String}
    {token : Token} {s : Session α} (hj : env.Joined client group start)
    (h : Session.begin env client topics token = (.ok s, after)) :
    s.group = group ∧ s.start = start ∧ s.phase = .opening (topics.map .topic) ∧ s.claims = [] := by
  obtain ⟨c, hc, hs⟩ := hj
  unfold Session.begin groupClient? at h
  rw [hc] at h
  dsimp only at h
  rw [hs] at h
  dsimp only at h
  split at h
  next => simp at h
  next =>
    cases h
    exact ⟨rfl, rfl, rfl, rfl⟩

theorem Follows.keep {s : Session α} (h : s.Follows logs u note)
    (hk : ∀ (key : PartitionKey) (offset : Int) (payload : Bytes),
      logs key offset payload → known key offset payload) : s.Follows known u note := by
  refine { h with claims := ?_ }
  intro i claim hi
  obtain ⟨key, first, hc, hf⟩ := h.claims i claim hi
  exact ⟨key, first, hc, hf.keep (hk _ _)⟩

section Steps

variable {s : Session α}

theorem Follows.later (h : s.Follows logs u note) {later : Session α} (hg : later.group = s.group)
    (hs : later.start = s.start)
    (hc : ∀ (i : Nat) (claim : Claim α), later.claims[i]? = some claim → ∃ old, s.claims[i]? = some old ∧
      claim.source = old.source ∧ claim.ackGroup = old.ackGroup ∧ claim.phase = old.phase)
    (ho : ∀ todo, later.phase ≠ .opening todo) (hu : ∀ feeds ending, later.phase ≠ .script feeds ending)
    (he : ∀ result, later.phase = .ended result → ∀ claim ∈ later.claims, claim.isOver = true) :
    later.Follows logs u note where
  group := hg.trans h.group
  start := hs.trans h.start
  claims i claim hi := by
    obtain ⟨old, hold, hsource, hack, hphase⟩ := hc i claim hi
    obtain ⟨key, first, hclaimed, hf⟩ := h.claims i old hold
    refine ⟨key, first, hclaimed, ?_⟩
    unfold Claim.Follows at hf ⊢
    rwa [hsource, hack, hphase]
  opening todo ht := absurd ht (ho todo)
  unscripted := hu
  ended := he

theorem Follows.fail (h : s.Follows logs u note) (failure : Failure) :
    ({ s with phase := .ended (.error failure), claims := [] } : Session α).Follows logs u note :=
  h.later rfl rfl (by simp) (by simp) (by simp) (by simp)

theorem Follows.windUp (h : s.Follows logs u note) (result : Except Failure Unit) :
    Session.Follows logs u note { s with phase := .draining result } :=
  h.later rfl rfl (fun _ claim hi => ⟨claim, hi, rfl, rfl, rfl⟩) (by simp) (by simp) (by simp)

theorem Follows.stepServing (h : s.Follows logs u note) (hp : s.phase = .serving) {later : Session α}
    (hs : s.stepServing env = some (after, later)) :
    later.claims.length = s.claims.length ∧ later.Follows logs u note := by
  cases stepServing_cases hs with
  | cancelled | closed | rebalanced | failed => exact ⟨rfl, h.windUp _⟩
  | joined =>
    refine ⟨List.length_modify .., h.later rfl rfl ?_ (by simp [hp]) (by simp [hp]) (by simp [hp])⟩
    intro i claim hi
    rw [List.getElem?_modify] at hi
    obtain ⟨old, hold, rfl⟩ := Option.map_eq_some_iff.mp hi
    refine ⟨old, hold, ?_⟩
    split <;> exact ⟨rfl, rfl, rfl⟩

theorem Follows.claim (h : s.Follows logs u note) (hlen : s.claims.length = note.current.claimed.length)
    {key : PartitionKey} {first : Int} {new : Claim α} (hn : note.current.offsets key = [])
    (hf : new.Follows logs u key first) {i : Nat} {claim : Claim α}
    (hi : (s.claims ++ [new])[i]? = some claim) :
    ∃ place start, (note.current.extend [(key, first)] []).claimed[i]? = some (place, start) ∧
      claim.Follows logs u place
        (start + ((note.current.extend [(key, first)] []).offsets place).length) := by
  simp only [SessionNote.offsets_claim]
  simp only [SessionNote.extend]
  rcases Nat.lt_or_ge i s.claims.length with hb | hb
  · rw [List.getElem?_append_left hb] at hi
    obtain ⟨place, start, hc, hf⟩ := h.claims i claim hi
    exact ⟨place, start, by rw [List.getElem?_append_left (hlen ▸ hb), hc], hf⟩
  · rw [List.getElem?_append_right hb, List.getElem?_singleton] at hi
    split at hi
    next hz =>
      cases hi
      have hi : i = note.current.claimed.length := by omega
      refine ⟨key, first, by rw [hi, List.getElem?_concat_length], ?_⟩
      simpa [hn] using hf
    next => simp at hi

/-- A session that opens the next partition claims it from where the group reads on. -/
theorem Follows.open (h : s.Follows logs u note) (hexact : note.current.Exact logs u)
    {todo : List Opening} (hp : s.phase = .opening todo) :
    let later := s.stepOpening env todo
    let current := note.current.extend (note.made env.broker u.group s.claims later.claims) []
    current.Exact logs u ∧ later.Follows logs u { note with current := current } := by
  obtain ⟨hlen, htodo⟩ := h.opening todo hp
  cases todo with
  | nil =>
    simp only [stepOpening, RunNote.made, List.drop_length, List.map_nil, SessionNote.extend_nil]
    exact ⟨hexact, h.later rfl rfl (fun _ claim hi => ⟨claim, hi, rfl, rfl, rfl⟩) (by simp) (by simp)
      (by simp)⟩
  | cons first rest =>
    cases first with
    | topic name =>
      obtain ⟨rfl, rfl, hempty⟩ := htodo.of_topic
      simp only [stepOpening]
      split
      next failure _ =>
        simp only [RunNote.made, List.drop_nil, List.map_nil, SessionNote.extend_nil]
        exact ⟨hexact, h.fail failure⟩
      next n _ =>
        simp only [RunNote.made, List.drop_length, List.map_nil, SessionNote.extend_nil]
        refine ⟨hexact, ⟨h.group, h.start, h.claims, ?_, by simp, by simp⟩⟩
        intro todo htodo
        cases htodo
        refine ⟨hlen, .inr ⟨(List.range n).map fun i : Nat => (u.topic, Int.ofNat i), by simp, ?_, by simp⟩⟩
        simp only [SessionNote.keys, hempty, List.map_nil, List.nil_append]
        exact List.Nodup.map (fun i j hij => Int.ofNat.inj (Prod.mk.inj hij).2) List.nodup_range
    | partition key =>
      obtain ⟨ht, more, rfl, hn, hmore⟩ := htodo.of_partition
      simp only [stepOpening]
      split
      next failure _ =>
        simp only [RunNote.made, List.drop_nil, List.map_nil, SessionNote.extend_nil]
        exact ⟨hexact, h.fail failure⟩
      next cursor hcursor =>
        obtain ⟨hkey, hposition⟩ := Cursor.open?_ok hcursor
        have hnew : key ∉ note.current.keys := fun hm =>
          (List.nodup_append.mp hn).2.2 key hm key (by simp) rfl
        have hfirst : env.broker.groupPosition u.group key note.start = cursor.position := by
          rw [hposition, h.group, h.start]
        simp only [RunNote.made, List.drop_left, List.map_cons, List.map_nil, Source.key, hkey, hfirst]
        refine ⟨hexact.claim hnew ht cursor.position, h.group, h.start, ?_, ?_, by simp, by simp⟩
        · have hf : Claim.Follows logs u key cursor.position
              ({ source := .log cursor, ackGroup := some s.group } : Claim α) :=
            hkey ▸ Claim.follows_new s.group h.group.symm
          exact fun i claim hi => h.claim hlen (hexact.offsets_of_new hnew) hf hi
        · intro todo htodo
          cases htodo
          refine ⟨by simp [SessionNote.extend, hlen], .inr ⟨more, rfl, ?_, hmore⟩⟩
          simpa [SessionNote.keys, SessionNote.extend] using hn

theorem Follows.step (h : s.Follows logs u note) (hexact : note.current.Exact logs u)
    {later : Session α} (hs : s.step env = some (after, later)) :
    let current := note.current.extend (note.made env.broker u.group s.claims later.claims) []
    current.Exact logs u ∧ later.Follows logs u { note with current := current } := by
  have hsame : later.claims.length = s.claims.length ∧ later.Follows logs u note →
      (let current := note.current.extend (note.made env.broker u.group s.claims later.claims) []
      current.Exact logs u ∧ later.Follows logs u { note with current := current }) := by
    rintro ⟨hlen, hf⟩
    have hmade : note.made env.broker u.group s.claims later.claims = [] := by
      rw [RunNote.made, List.drop_eq_nil_of_le (Nat.le_of_eq hlen), List.map_nil]
    simp only [hmade, SessionNote.extend_nil]
    exact ⟨hexact, hf⟩
  unfold Session.step at hs
  split at hs
  next hp =>
    cases hs
    exact h.open hexact hp
  next hp => exact hsame (h.stepServing hp hs)
  next =>
    split at hs
    next hover =>
      cases hs
      refine hsame ⟨rfl, h.later rfl rfl (fun _ claim hi => ⟨claim, hi, rfl, rfl, rfl⟩) (by simp)
        (by simp) ?_⟩
      exact fun _ _ => List.all_eq_true.mp hover
    next => simp at hs
  next hp => exact absurd hp (h.unscripted _ _)
  next => simp at hs
  next => simp at hs

theorem Follows.set (h : s.Follows logs u note) (hexact : note.current.Exact logs u) {i : Nat}
    {claim later : Claim α} {key : PartitionKey} {first : Int} (hi : s.claims[i]? = some claim)
    (hc : note.current.claimed[i]? = some (key, first)) (hrunning : claim.isOver = false)
    {sent : List (Message α)} (hsent : ∀ m ∈ sent, m.place = key)
    (hl : later.Follows logs u key (first + ((note.current.extend [] sent).offsets key).length)) :
    ({ s with claims := s.claims.set i later } : Session α).Follows logs u
      { note with current := note.current.extend [] sent } := by
  have hb := (List.getElem?_eq_some_iff.mp hi).1
  have hclaimed : (note.current.extend [] sent).claimed = note.current.claimed := by simp [SessionNote.extend]
  have hkeys : (note.current.extend [] sent).keys = note.current.keys := by simp [SessionNote.keys, hclaimed]
  refine ⟨h.group, h.start, ?_, ?_, h.unscripted, ?_⟩
  · intro j other hj
    rw [hclaimed]
    by_cases he : i = j
    · subst he
      rw [List.getElem?_set_self hb] at hj
      cases hj
      exact ⟨key, first, hc, hl⟩
    · rw [List.getElem?_set_ne he] at hj
      obtain ⟨k, start, hk, hf⟩ := h.claims j other hj
      have hne : key ≠ k := by
        rintro rfl
        have hki : note.current.keys[i]? = some key := by simp [SessionNote.keys, hc]
        have hkj : note.current.keys[j]? = some key := by simp [SessionNote.keys, hk]
        exact he ((List.getElem?_inj (List.getElem?_eq_some_iff.mp hki).1 hexact.once).mp (hki.trans hkj.symm))
      have hoffsets : (note.current.extend [] sent).offsets k = note.current.offsets k := by
        have hnone : sent.filter (·.place = k) = [] := by
          rw [List.filter_eq_nil_iff]
          intro m hm
          simp [hsent m hm, hne]
        simp [SessionNote.offsets, SessionNote.extend, hnone]
      exact ⟨k, start, hk, by rw [hoffsets]; exact hf⟩
  · intro todo ht
    obtain ⟨hlen, htodo⟩ := h.opening todo ht
    refine ⟨by rw [List.length_set, hclaimed]; exact hlen, ?_⟩
    unfold SessionNote.Opens at htodo ⊢
    rwa [hclaimed, hkeys]
  · intro result hr
    have := h.ended result hr claim (List.mem_of_getElem? hi)
    simp [hrunning] at this

end Steps

end Session

end TopicConsumer
