import InverterDashboard.Lib.RateLimit
import InverterDashboard.Push.Durable

set_option relaxedAutoImplicit false
set_option autoImplicit false

/-!
# The rate of test notifications

`QueueTest` takes one notification per endpoint and ten in all in 60 seconds. The times of the ten
are a list of the state, which nothing else touches; the last time of an endpoint is a field of its
subscription, which `Delete` and the answers 404 and 410 remove and `Register` makes again without
the time. Times are the milliseconds in which the store counts.

## Main definitions

* `Push.Testing` — the service, the calls it accepted, and the clock.
* `Push.Testing.Ticks` — the clock is positive and does not go back.
* `Push.Testing.Remembers` — a call for an endpoint whose record was made again comes a minute after
  the last one that was accepted.
* `Push.Testing.WithinLimits` — both limits.

## Main results

* `Push.Testing.limited_of_reachable` — the limits over whole runs of such calls, and the converse
  for each call.
-/

namespace Push

/-! ## What the change functions do to the times -/

/-- A test that changes the state found a subscription and room under both limits, and left its
time in the list and in the record. -/
theorem queueTestChange_spec {L : Libs} {endpoint id : String} {now : Instant} {data : DiskState}
    (hch : (queueTestChange L endpoint id now data).verdict = .changed) :
    ∃ sub, data.subscriptions.lookup (subscriptionID L endpoint) = some sub ∧
      (RateLimit.recent 60000 (unixMilli now) data.tests).length < 10 ∧
      (sub.lastTestMS = 0 ∨ 60000 ≤ unixMilli now - sub.lastTestMS) ∧
      (queueTestChange L endpoint id now data).data.tests =
        RateLimit.recent 60000 (unixMilli now) data.tests ++ [unixMilli now] ∧
      (queueTestChange L endpoint id now data).data.subscriptions =
        data.subscriptions.insert (subscriptionID L endpoint)
          { sub with lastTestMS := unixMilli now } := by
  obtain ⟨sub, hsub, -, hcount, hlast, hdata⟩ := queueTestChange_eq hch
  rw [hdata]
  exact ⟨sub, hsub, hcount, hlast, rfl, rfl⟩

/-- A test changes the state or fails. -/
theorem queueTestChange_ne_unchanged (L : Libs) (endpoint id : String) (now : Instant)
    (data : DiskState) : (queueTestChange L endpoint id now data).verdict ≠ .unchanged := by
  unfold queueTestChange
  dsimp only
  split
  · simp
  · split_ifs <;> simp

/-- The records after a change: a record that is new has no time, the others keep theirs. -/
def KeepsTimes (data data' : DiskState) : Prop :=
  data'.tests = data.tests ∧
    ∀ id sub', data'.subscriptions.lookup id = some sub' → sub'.lastTestMS = 0 ∨
      ∃ sub, data.subscriptions.lookup id = some sub ∧ sub'.lastTestMS = sub.lastTestMS

theorem KeepsTimes.of_eq {data data' : DiskState} (htests : data'.tests = data.tests)
    (hsubs : data'.subscriptions = data.subscriptions) : KeepsTimes data data' :=
  ⟨htests, fun _ sub' h => Or.inr ⟨sub', hsubs ▸ h, rfl⟩⟩

/-- Removing a record. -/
theorem KeepsTimes.of_erase {data data' : DiskState} {id : String}
    (htests : data'.tests = data.tests)
    (hsubs : data'.subscriptions = data.subscriptions.erase id) : KeepsTimes data data' := by
  refine ⟨htests, fun id' sub' h => Or.inr ⟨sub', ?_, rfl⟩⟩
  rw [hsubs] at h
  by_cases hid : id' = id
  · rw [hid, AList.lookup_erase] at h
    cases h
  · rwa [AList.lookup_erase_ne hid] at h

/-- No operation but `QueueTest` writes a time. -/
theorem Op.change_keepsTimes (L : Libs) {op : Op}
    (htest : ∀ endpoint now id, op ≠ .queueTest endpoint now id) (data : DiskState)
    (hch : (op.change L data).verdict = .changed) : KeepsTimes data (op.change L data).data := by
  cases op with
  | register sub prefs =>
    change (registerChange L sub prefs data).verdict = _ at hch
    show KeepsTimes data (registerChange L sub prefs data).data
    rw [(registerChange_spec hch).2]
    refine ⟨rfl, fun id sub' h => ?_⟩
    dsimp only at h
    by_cases hid : id = subscriptionID L sub.endpoint
    · rw [hid, AList.lookup_insert] at h
      obtain rfl := Option.some.inj h
      cases hold : data.subscriptions.lookup (subscriptionID L sub.endpoint) with
      | none => exact Or.inl rfl
      | some old => exact Or.inr ⟨old, hid ▸ hold, rfl⟩
    · rw [AList.lookup_insert_ne hid] at h
      exact Or.inr ⟨sub', h, rfl⟩
  | delete endpoint =>
    change (deleteChange L endpoint data).verdict = _ at hch
    show KeepsTimes data (deleteChange L endpoint data).data
    rw [deleteChange_spec hch]
    exact .of_erase rfl rfl
  | resetEpoch epoch => exact .of_eq rfl rfl
  | enqueue payload epoch prime visit =>
    obtain ⟨-, -, hdata, -⟩ := enqueueChange_spec hch
    show KeepsTimes data (enqueueChange payload epoch prime visit data).data
    rw [hdata]
    generalize pushKey data.dedupe payload.eventKey = ring
    exact .of_eq rfl rfl
  | queueTest endpoint now id => exact absurd rfl (htest endpoint now id)
  | pending now => exact .of_eq rfl rfl
  | finish item status transient now =>
    change (finishChange item status transient now data).verdict = _ at hch
    show KeepsTimes data (finishChange item status transient now data).data
    rw [(finishChange_spec hch).2]
    by_cases hgone : status = 404 ∨ status = 410
    · exact .of_erase rfl (if_pos hgone)
    · exact .of_eq rfl (if_neg hgone)

/-- Checking the arguments makes no other operation a `QueueTest`. -/
theorem Op.accept_eq_queueTest {L : Libs} {op : Op} {endpoint id : String} {now : Instant}
    (h : op.accept L = .ok (.queueTest endpoint now id)) : op = .queueTest endpoint now id := by
  cases op with
  | register sub prefs =>
    simp only [Op.accept] at h
    split at h <;> cases h
  | enqueue payload epoch prime visit =>
    simp only [Op.accept] at h
    split at h <;> cases h
  | _ =>
    cases h
    try rfl

/-! ## Accepted tests -/

/-- The service, the accepted calls of `QueueTest` with their times in milliseconds, oldest first,
and the time of the last call. -/
structure Testing where
  service : Service
  log : List (String × ℤ) := []
  clock : ℤ := 0

namespace Testing

/-- What follows the calls after an event, with the service it leaves. A call of `QueueTest` that
returns no error is logged. -/
def after (L : Libs) (t : Testing) : Service.Event → Service → Testing
  | .call (.queueTest endpoint now id) fault, s =>
    { service := s
      log := if (t.service.store.perform L (.queueTest endpoint now id) fault).2 = none
        then t.log ++ [(endpoint, unixMilli now)] else t.log
      clock := unixMilli now }
  | _, s => { t with service := s }

/-- One step. -/
def step (L : Libs) (t : Testing) (e : Service.Event) : Option Testing :=
  (t.service.step L e).map (t.after L e)

theorem after_of_ne {L : Libs} {t : Testing} {e : Service.Event} (s : Service)
    (h : ∀ endpoint now id fault, e ≠ .call (.queueTest endpoint now id) fault) :
    t.after L e s = { t with service := s } := by
  unfold after
  split
  · exact absurd rfl (h _ _ _ _)
  · rfl

/-- A run starts with a store that has taken no test call. -/
def Init (L : Libs) (t : Testing) : Prop := t.service.Init L ∧ t.log = [] ∧ t.clock = 0

/-- The endpoint and the time of a call of `QueueTest`. -/
def testOf? : Service.Event → Option (String × ℤ)
  | .call (.queueTest endpoint now _) _ => some (endpoint, unixMilli now)
  | _ => none

/-- The clock that `QueueTest` reads is positive and does not go back. -/
def Ticks (t : Testing) (e : Service.Event) : Prop :=
  ∀ r ∈ testOf? e, t.clock ≤ r.2 ∧ 0 < r.2

/-- Where the record of the endpoint has no time, 60 seconds have passed since every call that was
accepted for the endpoint. -/
def Remembers (L : Libs) (t : Testing) (e : Service.Event) : Prop :=
  ∀ r ∈ testOf? e,
    ∀ sub ∈ t.service.store.data.subscriptions.lookup (subscriptionID L r.1),
      sub.lastTestMS = 0 → ∀ r' ∈ t.log, r'.1 = r.1 → r'.2 + 60000 ≤ r.2

instance (t : Testing) (e : Service.Event) : Decidable (t.Ticks e) :=
  inferInstanceAs (Decidable (∀ r ∈ testOf? e, t.clock ≤ r.2 ∧ 0 < r.2))

instance (L : Libs) (t : Testing) (e : Service.Event) : Decidable (t.Remembers L e) :=
  inferInstanceAs (Decidable (∀ r ∈ testOf? e,
    ∀ sub ∈ t.service.store.data.subscriptions.lookup (subscriptionID L r.1),
      sub.lastTestMS = 0 → ∀ r' ∈ t.log, r'.1 = r.1 → r'.2 + 60000 ≤ r.2))

/-- Two calls for one endpoint are 60 seconds apart, and no half-open interval of 60 seconds
contains more than ten calls. -/
def WithinLimits (log : List (String × ℤ)) : Prop :=
  (log.Pairwise fun r r' => r.1 = r'.1 → r.2 + 60000 ≤ r'.2) ∧
    RateLimit.Limited 60000 10 (log.map Prod.snd)

/-! ## The times of a state -/

/-- A state remembers the logged times: its list has the ones that still count, and a record has no
time, or one that is not before the last accepted call for its endpoint. -/
structure Guarded (L : Libs) (log : List (String × ℤ)) (clock : ℤ) (d : DiskState) : Prop where
  tests : RateLimit.Covers 60000 clock (log.map Prod.snd) d.tests
  last : ∀ r ∈ log, ∀ sub, d.subscriptions.lookup (subscriptionID L r.1) = some sub →
    sub.lastTestMS = 0 ∨ r.2 ≤ sub.lastTestMS

variable {L : Libs} {log : List (String × ℤ)} {clock : ℤ} {d d' : DiskState}

theorem Guarded.later {clock' : ℤ} (h : Guarded L log clock d) (hle : clock ≤ clock') :
    Guarded L log clock' d := ⟨h.tests.later hle, h.last⟩

theorem Guarded.keepsTimes (h : Guarded L log clock d) (hkeep : KeepsTimes d d') :
    Guarded L log clock d' where
  tests := hkeep.1 ▸ h.tests
  last r hr sub' hsub' := by
    rcases hkeep.2 _ _ hsub' with hzero | ⟨sub, hsub, heq⟩
    · exact Or.inl hzero
    · exact heq ▸ h.last r hr sub hsub

/-- A test that is not logged leaves a state that remembers more. -/
theorem Guarded.tested (h : Guarded L log clock d) (hpast : ∀ r ∈ log, r.2 ≤ clock)
    {endpoint id : String} {now : Instant} (hle : clock ≤ unixMilli now)
    (hch : (queueTestChange L endpoint id now d).verdict = .changed) :
    Guarded L log (unixMilli now) (queueTestChange L endpoint id now d).data := by
  obtain ⟨sub, -, -, -, htests, hsubs⟩ := queueTestChange_spec hch
  refine ⟨?_, fun r hr sub' hsub' => ?_⟩
  · rw [htests]
    exact (h.tests.prune hle).grow (List.sublist_append_left _ _)
  · rw [hsubs] at hsub'
    by_cases hid : subscriptionID L r.1 = subscriptionID L endpoint
    · rw [hid, AList.lookup_insert] at hsub'
      obtain rfl := Option.some.inj hsub'
      exact Or.inr ((hpast r hr).trans hle)
    · rw [AList.lookup_insert_ne hid] at hsub'
      exact h.last r hr sub' hsub'

/-- A test that is logged. -/
theorem Guarded.logged (h : Guarded L log clock d) (hpast : ∀ r ∈ log, r.2 ≤ clock)
    {endpoint id : String} {now : Instant} (hle : clock ≤ unixMilli now)
    (hch : (queueTestChange L endpoint id now d).verdict = .changed) :
    Guarded L (log ++ [(endpoint, unixMilli now)]) (unixMilli now)
      (queueTestChange L endpoint id now d).data := by
  have htested := h.tested hpast hle hch
  obtain ⟨sub, -, -, -, htests, hsubs⟩ := queueTestChange_spec hch
  refine ⟨?_, fun r hr sub' hsub' => ?_⟩
  · rw [htests, List.map_append]
    exact h.tests.admitted hle
  · rcases List.mem_append.mp hr with hr | hr
    · exact htested.last r hr sub' hsub'
    · obtain rfl := List.mem_singleton.mp hr
      rw [hsubs, AList.lookup_insert] at hsub'
      obtain rfl := Option.some.inj hsub'
      exact Or.inr le_rfl

/-! ## The invariant -/

/-- The file remembers the log, and so does memory unless a save has failed; both limits hold. -/
structure Inv (L : Libs) (t : Testing) : Prop where
  past : ∀ r ∈ t.log, r.2 ≤ t.clock
  disk : Guarded L t.log t.clock t.service.store.disk
  data : t.service.store.failed = false → Guarded L t.log t.clock t.service.store.data
  limited : WithinLimits t.log

theorem inv_of_init {t : Testing} (h : t.Init L) : Inv L t := by
  obtain ⟨-, hlog, -⟩ := h
  have hguard : ∀ d, Guarded L t.log t.clock d := fun d => by
    rw [hlog]
    exact ⟨RateLimit.covers_nil _ _ _, fun r hr => by simp at hr⟩
  refine ⟨fun r hr => ?_, hguard _, fun _ => hguard _, ?_⟩
  · simp [hlog] at hr
  · rw [hlog]
    exact ⟨.nil, RateLimit.limited_nil _ _⟩

/-- A step of the service that is no test keeps what the states remember. -/
theorem Inv.service {t : Testing} (h : Inv L t) {e : Service.Event} {s : Service}
    (hs : t.service.step L e = some s)
    (htest : ∀ endpoint now id fault, e ≠ .call (.queueTest endpoint now id) fault) :
    Inv L { t with service := s } := by
  have hkept : ∀ {op : Op} {fault : Option SaveFault} {store : Store},
      (∀ endpoint now id, op ≠ .queueTest endpoint now id) →
      t.service.store.Kept L (op.change L t.service.store.data).data
        (t.service.store.writes L (op.change L) fault) store →
      (t.service.store.writes L (op.change L) fault = true →
        (op.change L t.service.store.data).verdict = .changed) →
      Guarded L t.log t.clock store.disk ∧
        (store.failed = false → Guarded L t.log t.clock store.data) := by
    intro op fault store hop hkept hch
    cases hkept with
    | same _ hdata hdisk hf =>
      rw [hdata, hdisk]
      exact ⟨h.disk, fun hfailed => h.data (hf hfailed)⟩
    | saved hw hf hdata hdisk _ =>
      have hnext := (h.data hf).keepsTimes (Op.change_keepsTimes L hop _ (hch hw))
      rw [hdata, hdisk]
      exact ⟨hnext, fun _ => hnext⟩
    | written hw hf hdata hdisk hfailed _ =>
      rw [hdisk]
      exact ⟨(h.data hf).keepsTimes (Op.change_keepsTimes L hop _ (hch hw)),
        fun hf' => absurd (hfailed.symm.trans hf') (by simp)⟩
  cases Service.step_moved L hs with
  | @called op op' fault store hacc hop hk hch =>
    have hne : ∀ endpoint now id, op' ≠ .queueTest endpoint now id := by
      rintro endpoint now id rfl
      exact htest endpoint now id fault (by rw [Op.accept_eq_queueTest hacc])
    exact ⟨h.past, (hkept hne hk hch).1, (hkept hne hk hch).2, h.limited⟩
  | refused => exact h
  | skipped => exact h
  | entered _ => exact ⟨h.past, h.disk, h.data, h.limited⟩
  | @resumed i fault c store hc hk hch =>
    have hne : ∀ endpoint now id, c.op ≠ .queueTest endpoint now id := by
      intro endpoint now id heq
      cases heq
    exact ⟨h.past, (hkept hne hk hch).1, (hkept hne hk hch).2, h.limited⟩
  | closed =>
    refine ⟨h.past, ?_, fun hf => ?_, h.limited⟩
    · simpa using h.disk
    · simpa using h.data (by simpa using hf)
  | restarted hload =>
    obtain ⟨-, -, rfl⟩ := Store.load_eq_some hload
    exact ⟨h.past, h.disk, fun _ => h.disk, h.limited⟩

/-! ## A test call -/

/-- A test call is refused or not saved, or it is saved in memory and file. -/
theorem test_cases {t : Testing} (h : Inv L t) {now : Instant} (hle : t.clock ≤ unixMilli now)
    (endpoint id : String) (fault : Option SaveFault) :
    let r := t.service.store.perform L (.queueTest endpoint now id) fault
    let next := queueTestChange L endpoint id now t.service.store.data
    (r.2 ≠ none ∧ Guarded L t.log (unixMilli now) r.1.disk ∧
      (r.1.failed = false → Guarded L t.log (unixMilli now) r.1.data)) ∨
    (r.2 = none ∧ t.service.store.failed = false ∧ next.verdict = .changed ∧
      r.1.disk = next.data ∧ r.1.data = next.data) := by
  intro r next
  have hdisk := h.disk.later hle
  have hcases := t.service.store.mutate_cases L (queueTestChange L endpoint id now) fault
  have hperform : r = t.service.store.mutate L (queueTestChange L endpoint id now) fault := rfl
  rw [← hperform] at hcases
  generalize r = r at hcases
  cases hcases with
  | refused hu => exact Or.inl ⟨by simp, hdisk, fun hf => (h.data hf).later hle⟩
  | rejected hu hv => exact Or.inl ⟨by simp, hdisk, fun hf => (h.data hf).later hle⟩
  | unchanged hu hv => exact absurd hv (queueTestChange_ne_unchanged L endpoint id now _)
  | unsaved hu hv hsave =>
    refine Or.inl ⟨by simp, ?_, fun hf => by simp at hf⟩
    -- the file is the old one, or the new one although the caller was told otherwise
    have hsaved := t.service.store.save_cases L next.data fault
    rw [hsave] at hsaved
    cases hsaved with
    | before _ _ => exact hdisk
    | after _ _ _ => exact (h.data (Store.failed_of_unusable hu)).tested h.past hle hv
  | saved hu hv hsave =>
    have hsaved := t.service.store.save_cases L next.data fault
    rw [hsave] at hsaved
    cases hsaved with
    | done _ _ => exact Or.inr ⟨rfl, Store.failed_of_unusable hu, hv, rfl, rfl⟩

/-- A saved test call keeps the limits exactly where its endpoint's record was not made again less
than 60 seconds after an accepted call. -/
theorem withinLimits_append_iff {t : Testing} (h : Inv L t)
    (hf : t.service.store.failed = false) {endpoint id : String} {now : Instant}
    {fault : Option SaveFault} (hle : t.clock ≤ unixMilli now)
    (hch : (queueTestChange L endpoint id now t.service.store.data).verdict = .changed) :
    WithinLimits (t.log ++ [(endpoint, unixMilli now)]) ↔
      t.Remembers L (.call (.queueTest endpoint now id) fault) := by
  have hguard := h.data hf
  obtain ⟨sub, hsub, hcount, hlast, -⟩ := queueTestChange_spec hch
  have hwindow : RateLimit.Limited 60000 10
      ((t.log ++ [(endpoint, unixMilli now)]).map Prod.snd) := by
    rw [List.map_append]
    exact h.limited.2.admitted hguard.tests hle hcount
  unfold WithinLimits
  rw [and_iff_left hwindow, List.pairwise_append]
  constructor
  · rintro ⟨-, -, hcross⟩ test htest sub' hsub' hzero r hr hendpoint
    obtain rfl := Option.some.inj htest
    exact hcross r hr _ (List.mem_singleton_self _) hendpoint
  · intro hremembers
    refine ⟨h.limited.1, List.pairwise_singleton _ _, fun r hr r' hr' hendpoint => ?_⟩
    obtain rfl := List.mem_singleton.mp hr'
    dsimp only at hendpoint ⊢
    rcases hlast with hzero | hapart
    · exact hremembers _ rfl sub hsub hzero r hr hendpoint
    · rcases hguard.last r hr sub (by rw [hendpoint, hsub]) with hzero | hbefore
      · exact hremembers _ rfl sub hsub hzero r hr hendpoint
      · omega

/-! ## Runs -/

/-- **Step.** A step of a clock that does not go back, where a test call remembers, keeps the
invariant; a test call that is accepted keeps the limits only where it remembers. -/
theorem inv_step {t t' : Testing} {e : Service.Event} (h : Inv L t) (htick : t.Ticks e)
    (hs : t.step L e = some t') :
    (t.Remembers L e → Inv L t') ∧
      (t'.log ≠ t.log → (WithinLimits t'.log ↔ t.Remembers L e)) := by
  obtain ⟨s, hservice, rfl⟩ := Option.map_eq_some_iff.mp hs
  by_cases htest : ∃ endpoint now id fault, e = .call (.queueTest endpoint now id) fault
  · obtain ⟨endpoint, now, id, fault, rfl⟩ := htest
    have hle : t.clock ≤ unixMilli now := (htick _ rfl).1
    obtain rfl := Option.some.inj hservice
    simp only [after]
    rcases test_cases h hle endpoint id fault with ⟨hne, hdisk, hdata⟩ |
      ⟨hnone, hf, hch, hdisk, hdata⟩
    · rw [if_neg hne]
      exact ⟨fun _ => ⟨fun r hr => (h.past r hr).trans hle, hdisk, hdata, h.limited⟩,
        fun hlog => absurd rfl hlog⟩
    · rw [if_pos hnone]
      have hiff : WithinLimits (t.log ++ [(endpoint, unixMilli now)]) ↔
          t.Remembers L (.call (.queueTest endpoint now id) fault) :=
        withinLimits_append_iff h hf hle hch
      refine ⟨fun hremembers => ⟨fun r hr => ?_, ?_, fun _ => ?_, hiff.mpr hremembers⟩,
        fun _ => hiff⟩
      · rcases List.mem_append.mp hr with hr | hr
        · exact (h.past r hr).trans hle
        · rw [List.mem_singleton.mp hr]
      · dsimp only
        rw [hdisk]
        exact (h.data hf).logged h.past hle hch
      · dsimp only
        rw [hdata]
        exact (h.data hf).logged h.past hle hch
  · have hne : ∀ endpoint now id fault, e ≠ .call (.queueTest endpoint now id) fault :=
      fun endpoint now id fault heq => htest ⟨endpoint, now, id, fault, heq⟩
    rw [after_of_ne s hne]
    exact ⟨fun _ => h.service hservice hne, fun hlog => absurd rfl hlog⟩

/-- **The rate of test notifications.** In every run of the store whose clock is positive and does
not go back, and in which a test call for an endpoint whose record was made again comes at least 60
seconds after the accepted calls for that endpoint, accepted calls for one endpoint are 60 seconds
apart, and no half-open interval of 60 seconds contains more than ten. A further call that is
accepted keeps that only where it meets the condition.

**Proof sketch.** The list of a state has every accepted time that still counts, through forgetting,
failed saves and restarts. A record without a time was made again; one with a time has that of a
call that is not before the last accepted one. -/
theorem limited_of_reachable {t : Testing}
    (h : Transition.Reachable (step L) (fun t e => t.Ticks e ∧ t.Remembers L e) (Init L) t) :
    WithinLimits t.log ∧
      ∀ e t', t.Ticks e → t.step L e = some t' → t'.log ≠ t.log →
        (WithinLimits t'.log ↔ t.Remembers L e) := by
  have hinv : Inv L t := h.invariant (fun _ => inv_of_init) fun _ _ _ hi hok hs =>
    (inv_step hi hok.1 hs).1 hok.2
  exact ⟨hinv.limited, fun e t' htick hs => (inv_step hinv htick hs).2⟩

/-! ## A minute apart, and not -/

/-- A store with one subscription. -/
def sampleTesting : Testing :=
  { service := { store := { data := Service.sampleState, disk := Service.sampleState } } }

theorem init_sampleTesting : sampleTesting.Init Service.sampleLibs :=
  ⟨Service.init_of_valid (by decide) (by decide), rfl, rfl⟩

/-- A test of the sample's endpoint after a number of seconds. -/
def testAfter (n : ℤ) (id : String) : Service.Event :=
  .call (.queueTest Service.sampleSubscription.endpoint (seconds n) id) none

/-- Two tests with a minute, a removal and a new registration between them. -/
theorem limited_of_reachable_registered : ∃ t : Testing,
    t.log.length = 2 ∧ WithinLimits t.log ∧
      ∀ e t', t.Ticks e → t.step Service.sampleLibs e = some t' → t'.log ≠ t.log →
        (WithinLimits t'.log ↔ t.Remembers Service.sampleLibs e) := by
  obtain ⟨t, ht, hp⟩ := Transition.Reachable.exists_of_run (step Service.sampleLibs)
    (fun t e => t.Ticks e ∧ t.Remembers Service.sampleLibs e)
    [testAfter 100 "a", .call (.delete Service.sampleSubscription.endpoint) none,
      .call (.register Service.sampleSubscription defaultPreferences) none, testAfter 160 "b"]
    (fun t => decide (t.log.length = 2)) init_sampleTesting (by decide)
    (by decide)
  exact ⟨t, of_decide_eq_true hp, limited_of_reachable ht⟩

/-- Removing the subscription and registering it again takes a second test of the endpoint one
second after the first. -/
theorem not_withinLimits_of_reachable_registered : ∃ t : Testing,
    Transition.Reachable (step Service.sampleLibs) (fun t e => t.Ticks e)
      (Init Service.sampleLibs) t ∧ ¬ WithinLimits t.log := by
  obtain ⟨t, ht, hp⟩ := Transition.Reachable.exists_of_run (step Service.sampleLibs)
    (fun t e => t.Ticks e)
    [testAfter 100 "a", .call (.delete Service.sampleSubscription.endpoint) none,
      .call (.register Service.sampleSubscription defaultPreferences) none, testAfter 101 "b"]
    (fun t => decide (t.log.map Prod.snd = [100000, 101000] ∧
      t.log.map Prod.fst = [Service.sampleSubscription.endpoint,
        Service.sampleSubscription.endpoint])) init_sampleTesting (by decide)
    (by decide)
  obtain ⟨htimes, hendpoints⟩ := of_decide_eq_true hp
  refine ⟨t, ht, fun hlimits => ?_⟩
  obtain ⟨r, r', hlog⟩ : ∃ r r', t.log = [r, r'] :=
    List.length_eq_two.mp (by simpa using congrArg List.length htimes)
  rw [hlog] at hlimits htimes hendpoints
  simp only [List.map_cons, List.map_nil, List.cons.injEq, and_true] at htimes hendpoints
  have hapart := (List.pairwise_cons.mp hlimits.1).1 r' (List.mem_singleton_self _)
    (hendpoints.1.trans hendpoints.2.symm)
  omega

end Testing

end Push
