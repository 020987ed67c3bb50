import InverterDashboard.Push.Synthetic

set_option relaxedAutoImplicit false
set_option autoImplicit false

/-!
# Admission of native notifications

Which notifications of a list are handed over for delivery, and which silently, said in terms of the
observations since the last reset and without the table of the notifications whose time is unknown.
The table compares texts as titles and bodies joined with a NUL character, so two texts that differ
only in where a NUL separates the title from the body are the same to it.

## Main definitions

* `Push.Primes` — the list of an observation is silent.
* `Push.Waiting` — a notification was there without a time in a silent list, and ever since.
* `Push.Admitted` — a notification is handed over for delivery.

## Main results

* `Push.Processor.natives_cons` — one notification.
* `Push.Listed`, `Push.listed_step` — what the table knows of the history.
* `Push.Processing.natives_iff` — what is handed over, and how.
-/

namespace Push

/-! ## The history's view -/

/-- The list of an observation is silent: it is retained, or it comes too early after the reset, or
it is the first since then. -/
def Primes (p : Processor) (past : List (Observation × Instant)) (ob : Observation)
    (now : Instant) : Prop :=
  ob.retained = true ∨ (p.source = "mqtt" ∧ now - p.start < seconds 10) ∨
    (p.source ≠ "mqtt" ∧ ∀ e ∈ past, e.1.notifications = none)

/-- The notification has the same title and the same body. -/
def SameText (m n : Native) : Prop := m.title = n.title ∧ m.body = n.body

/-- The notification has the same title and body once they are joined with a NUL. -/
def SameIdentity (m n : Native) : Prop := Processor.identity m = Processor.identity n

/-- If this observation has a list, the notification is in it, without a time. -/
def Untimed (same : Native → Native → Prop) (n : Native) (ob : Observation) : Prop :=
  ∀ ns, ob.notifications = some ns → ∃ m ∈ ns, m.id = n.id ∧ m.timestamp = zeroTime ∧ same m n

/-- The notification was without a time in a silent list, and in every list since. -/
def Waiting (same : Native → Native → Prop) (p : Processor) (past : List (Observation × Instant))
    (n : Native) : Prop :=
  ∃ newer o t older, past = newer ++ (o, t) :: older ∧ o.notifications ≠ none ∧
    Primes p older o t ∧ Untimed same n o ∧ ∀ e ∈ newer, Untimed same n e.1

/-- The notification happened at most 300 s ago and is at most 30 s early, in milliseconds. -/
def OnTime (n : Native) (now : Instant) : Prop :=
  0 < unixMilli n.timestamp ∧ now - unixMilli n.timestamp * 1000000 ≤ seconds 300 ∧
    unixMilli n.timestamp * 1000000 - now ≤ seconds 30

/-- The notification is handed over for delivery. -/
def Admitted (same : Native → Native → Prop) (p : Processor) (past : List (Observation × Instant))
    (ob : Observation) (now : Instant) (n : Native) : Prop :=
  ¬ Primes p past ob now ∧ n.timestamp ≠ zeroTime ∧ OnTime n now ∧
    p.start - seconds 30 ≤ n.timestamp ∧ (n.level = "warning" ∨ n.level = "error") ∧
    ¬ Waiting same p past n

/-- The lists of an observation have unique identifiers. -/
def Observation.Distinct (ob : Observation) : Prop :=
  ∀ ns, ob.notifications = some ns → (ns.map Native.id).Nodup

section Waiting

variable {same : Native → Native → Prop} {p : Processor} {past : List (Observation × Instant)}
  {o : Observation} {t : Instant} {n : Native}

theorem not_waiting_nil : ¬ Waiting same p [] n := by
  rintro ⟨newer, o, t, older, hpast, -⟩
  cases newer <;> cases hpast

/-- One more observation: the notification is still there, and this list is silent or it has waited
before. -/
theorem waiting_cons : Waiting same p ((o, t) :: past) n ↔
    Untimed same n o ∧ (o.notifications ≠ none ∧ Primes p past o t ∨ Waiting same p past n) := by
  constructor
  · rintro ⟨newer, o', t', older, hpast, hlist, hprimes, huntimed, hsince⟩
    cases newer with
    | nil =>
      obtain ⟨heq, rfl⟩ := List.cons.inj hpast
      obtain ⟨rfl, rfl⟩ := Prod.mk.inj heq
      exact ⟨huntimed, Or.inl ⟨hlist, hprimes⟩⟩
    | cons e newer =>
      obtain ⟨rfl, rfl⟩ := List.cons.inj hpast
      refine ⟨hsince _ List.mem_cons_self, Or.inr ⟨newer, o', t', older, rfl, hlist, hprimes,
        huntimed, fun e he => hsince e (List.mem_cons_of_mem _ he)⟩⟩
  · rintro ⟨huntimed, ⟨hlist, hprimes⟩ | ⟨newer, o', t', older, rfl, hlist, hprimes, hun, hsince⟩⟩
    · exact ⟨[], o, t, past, rfl, hlist, hprimes, huntimed, List.forall_mem_nil _⟩
    · refine ⟨(o, t) :: newer, o', t', older, rfl, hlist, hprimes, hun, fun e he => ?_⟩
      rcases List.mem_cons.mp he with rfl | he
      · exact huntimed
      · exact hsince e he

end Waiting

/-! ## The table -/

namespace Processor

/-- What the table says of a notification after it was met. -/
def entry (p : Processor) (prime : Bool) (n : Native) : Option String :=
  if n.timestamp = zeroTime ∧ (prime = true ∨ p.unknown n.id = some (identity n)) then
    some (identity n)
  else none

/-- The processor behind a notification. -/
def meet (p : Processor) (prime : Bool) (n : Native) : Processor :=
  { p with unknown := Function.update p.unknown n.id (p.entry prime n) }

/-- The table without an entry for another text. -/
def drop (p : Processor) (n : Native) : Processor :=
  if (p.unknown n.id).any fun old => old ≠ identity n then
    { p with unknown := Function.update p.unknown n.id none }
  else p

/-- Dropping the entry for another text does not change whether there is one for this text. -/
theorem drop_unknown_iff (p : Processor) (n : Native) :
    (p.drop n).unknown n.id = some (identity n) ↔ p.unknown n.id = some (identity n) := by
  unfold drop
  split_ifs with hany
  · rw [show ({ p with unknown := Function.update p.unknown n.id none } : Processor).unknown n.id
      = none from Function.update_self ..]
    constructor
    · intro h
      cases h
    · intro h
      rw [h] at hany
      simp at hany
  · exact Iff.rfl

/-- What is written over the entry of a notification does not depend on whether it was dropped. -/
theorem drop_update (p : Processor) (n : Native) (v : Option String) :
    ({ p.drop n with unknown := Function.update (p.drop n).unknown n.id v } : Processor) =
      { p with unknown := Function.update p.unknown n.id v } := by
  unfold drop
  split_ifs
  · simp
  · rfl

/-- The entry of a notification that is met without being written. -/
theorem drop_eq_meet {p : Processor} {n : Native} (hzero : n.timestamp = zeroTime) :
    p.drop n = p.meet false n := by
  unfold drop meet entry
  cases hold : p.unknown n.id with
  | none =>
    simp only [Option.any_none, Bool.false_eq_true, if_false, reduceCtorEq, or_self, and_false]
    rw [← hold, Function.update_eq_self]
  | some old =>
    by_cases hsame : old = identity n
    · subst hsame
      simp only [Option.any_some, ne_eq, not_true_eq_false, decide_false, Bool.false_eq_true,
        if_false, hzero, or_true, and_self, if_true]
      rw [← hold, Function.update_eq_self]
    · simp [hsame]

/-- A call depends on the entry of its notification only. -/
theorem nativeRequest_congr {L : Libs} {p p' : Processor} {prime : Bool} {now : Instant}
    {n : Native}
    (hepoch : p'.epoch = p.epoch) (hstart : p'.start = p.start)
    (hunknown : p'.unknown n.id = some (identity n) ↔ p.unknown n.id = some (identity n)) :
    nativeRequest L p' prime now n = nativeRequest L p prime now n := by
  unfold nativeRequest
  simp only [hepoch, hstart, hunknown]

theorem nativeRequest_drop (L : Libs) (p : Processor) (prime : Bool) (now : Instant) (n : Native) :
    nativeRequest L (p.drop n) prime now n = nativeRequest L p prime now n := by
  refine nativeRequest_congr ?_ ?_ (drop_unknown_iff p n)
  · unfold drop
    split_ifs <;> rfl
  · unfold drop
    split_ifs <;> rfl

/-- One notification: the table moves on, and a notification with a time makes a call. -/
theorem natives_cons (L : Libs) (fails : ℕ → Bool) (prime : Bool) (now : Instant) (n : Native)
    (rest : List Native) (p : Processor) (calls : List Request) :
    natives L fails prime now (n :: rest) p calls =
      if n.timestamp = zeroTime then natives L fails prime now rest (p.meet prime n) calls
      else if fails calls.length then
        { processor := p.drop n
          calls := calls ++ [nativeRequest L p prime now n]
          ok := false }
      else natives L fails prime now rest (p.meet prime n)
        (calls ++ [nativeRequest L p prime now n]) := by
  rw [natives]
  show (if n.timestamp = zeroTime then
      natives L fails prime now rest (if prime then { p.drop n with
        unknown := Function.update (p.drop n).unknown n.id (some (identity n)) } else p.drop n)
        calls
    else _) = _
  by_cases hzero : n.timestamp = zeroTime
  · rw [if_pos hzero, if_pos hzero]
    cases prime with
    | false => rw [if_neg Bool.false_ne_true, drop_eq_meet hzero]
    | true =>
      rw [if_pos rfl, drop_update]
      unfold meet entry
      rw [if_pos ⟨hzero, Or.inl rfl⟩]
  · rw [if_neg hzero, if_neg hzero]
    show (if (!fails calls.length) = true then natives L fails prime now rest { p.drop n with
        unknown := Function.update (p.drop n).unknown n.id none }
        (calls ++ [nativeRequest L (p.drop n) prime now n]) else
      { processor := p.drop n, calls := calls ++ [nativeRequest L (p.drop n) prime now n],
        ok := !fails calls.length }) = _
    rw [drop_update, nativeRequest_drop]
    have hmeet : p.meet prime n = { p with unknown := Function.update p.unknown n.id none } := by
      unfold meet entry
      rw [if_neg fun h => hzero h.1]
    rw [hmeet]
    cases fails calls.length <;> rfl

/-- The members that only `Reset` sets, and those the samples do not touch. -/
structure SameNatives (p p' : Processor) : Prop where
  epoch : p'.epoch = p.epoch
  source : p'.source = p.source
  start : p'.start = p.start
  connected : p'.connected = p.connected
  primed : p'.primed = p.primed

theorem SameNatives.trans {p₁ p₂ p₃ : Processor} (h : SameNatives p₁ p₂) (h' : SameNatives p₂ p₃) :
    SameNatives p₁ p₃ :=
  ⟨h'.epoch.trans h.epoch, h'.source.trans h.source, h'.start.trans h.start,
    h'.connected.trans h.connected, h'.primed.trans h.primed⟩

/-- **The loop over the notifications** of a list with unique identifiers: each with a time makes
one call, which depends on the table before the list, and each leaves its own entry.

**Proof sketch.** Induction over the list; a notification touches no entry but its own. -/
theorem natives_spec (L : Libs) (fails : ℕ → Bool) (prime : Bool) (now : Instant)
    (ns : List Native) (p : Processor) (calls : List Request) (hnodup : (ns.map Native.id).Nodup)
    (hok : (natives L fails prime now ns p calls).ok = true) :
    (natives L fails prime now ns p calls).calls =
        calls ++ (ns.filter (·.timestamp ≠ zeroTime)).map (nativeRequest L p prime now) ∧
      SameNatives p (natives L fails prime now ns p calls).processor ∧
      (∀ id ∉ ns.map Native.id,
        (natives L fails prime now ns p calls).processor.unknown id = p.unknown id) ∧
      ∀ n ∈ ns, (natives L fails prime now ns p calls).processor.unknown n.id =
      p.entry prime n := by
  induction ns generalizing p calls with
  | nil =>
    refine ⟨?_, ⟨rfl, rfl, rfl, rfl, rfl⟩, fun _ _ => rfl, List.forall_mem_nil _⟩
    simp [natives]
  | cons n ns ih =>
    obtain ⟨hn, hnodup⟩ := List.nodup_cons.mp hnodup
    have hmeet : ∀ id, id ≠ n.id → (p.meet prime n).unknown id = p.unknown id :=
      fun id hid => Function.update_of_ne hid _ _
    have hsame : SameNatives p (p.meet prime n) := ⟨rfl, rfl, rfl, rfl, rfl⟩
    have hother : ∀ m ∈ ns, (p.meet prime n).unknown m.id = p.unknown m.id := by
      intro m hm
      refine hmeet m.id fun heq => hn ?_
      rw [← heq]
      exact List.mem_map_of_mem hm
    have hrest : (ns.filter (·.timestamp ≠ zeroTime)).map
        (nativeRequest L (p.meet prime n) prime now)
        = (ns.filter (·.timestamp ≠ zeroTime)).map (nativeRequest L p prime now) := by
      refine List.map_congr_left fun m hm => nativeRequest_congr rfl rfl ?_
      rw [hother m (List.mem_of_mem_filter hm)]
    have hrun : ∀ calls', (natives L fails prime now ns (p.meet prime n) calls').ok = true →
        natives L fails prime now (n :: ns) p calls =
          natives L fails prime now ns (p.meet prime n) calls' →
        calls' = calls ++ ([n].filter (·.timestamp ≠ zeroTime)).map (nativeRequest L p prime now) →
        (natives L fails prime now (n :: ns) p calls).calls =
            calls ++ ((n :: ns).filter (·.timestamp ≠ zeroTime)).map (nativeRequest L p prime now) ∧
          SameNatives p (natives L fails prime now (n :: ns) p calls).processor ∧
          (∀ id ∉ (n :: ns).map Native.id,
            (natives L fails prime now (n :: ns) p calls).processor.unknown id = p.unknown id) ∧
          ∀ m ∈ n :: ns,
            (natives L fails prime now (n :: ns) p calls).processor.unknown m.id =
            p.entry prime m := by
      intro calls' hok heq hcalls
      obtain ⟨h₁, h₂, h₃, h₄⟩ := ih (p.meet prime n) calls' hnodup hok
      rw [heq]
      refine ⟨?_, hsame.trans h₂, fun id hid => ?_, fun m hm => ?_⟩
      · rw [h₁, hrest, hcalls, List.append_assoc, ← List.map_append, ← List.filter_append]
        rfl
      · obtain ⟨hid, hids⟩ := not_or.mp (fun h => hid (List.mem_cons.mpr h))
        rw [h₃ id hids, hmeet id hid]
      · rcases List.mem_cons.mp hm with rfl | hm
        · rw [h₃ m.id hn]
          exact Function.update_self ..
        · rw [h₄ m hm]
          unfold entry
          rw [hother m hm]
    rw [natives_cons] at hok
    split_ifs at hok with hzero hfails
    · exact hrun calls hok (by rw [natives_cons, if_pos hzero]) (by simp [hzero])
    · exact hrun _ hok (by rw [natives_cons, if_neg hzero, if_neg hfails]) (by simp [hzero])

/-- The loop over the samples leaves the notifications alone. -/
theorem samples_frame (L : Libs) (fails : ℕ → Bool) (retained : Bool) (now : Instant) (i : ℕ)
    (σs : List Sample) (p : Processor) (calls : List Request) :
    SameNatives p (samples L fails retained now i σs p calls).processor ∧
      (samples L fails retained now i σs p calls).processor.unknown = p.unknown ∧
      (samples L fails retained now i σs p calls).calls.filter (·.sample = none) =
        calls.filter (·.sample = none) := by
  induction σs generalizing i p calls with
  | nil => exact ⟨⟨rfl, rfl, rfl, rfl, rfl⟩, rfl, rfl⟩
  | cons σ σs ih =>
    rw [samples_cons]
    have hafter : SameNatives p (p.after retained now σ) := ⟨rfl, rfl, rfl, rfl, rfl⟩
    have hcalls : ∀ note, (calls ++ [request L p now i σ note]).filter (·.sample = none) =
        calls.filter (·.sample = none) := by
      intro note
      rw [List.filter_append]
      simp [request]
    cases p.eventOf retained now σ with
    | none =>
      obtain ⟨h₁, h₂, h₃⟩ := ih (i + 1) (p.after retained now σ) calls
      exact ⟨hafter.trans h₁, h₂, h₃⟩
    | some note =>
      dsimp only
      split_ifs
      · exact ⟨hafter, rfl, hcalls note⟩
      · obtain ⟨h₁, h₂, h₃⟩ := ih (i + 1) (p.after retained now σ)
          (calls ++ [request L p now i σ note])
        exact ⟨hafter.trans h₁, h₂, h₃.trans (hcalls note)⟩

end Processor

/-! ## What the table knows of the history -/

/-- There was a list exactly when the processor is primed, and an entry is that of a notification
that waits. -/
structure Listed (p : Processor) (past : List (Observation × Instant)) : Prop where
  primed : p.primed = false ↔ ∀ e ∈ past, e.1.notifications = none
  unknown : ∀ n, p.unknown n.id = some (Processor.identity n) ↔ Waiting SameIdentity p past n

/-- Whether a list is silent does not depend on what the observations change. -/
theorem primes_congr {p p' : Processor} (hsource : p'.source = p.source)
    (hstart : p'.start = p.start)
    (past : List (Observation × Instant)) (ob : Observation) (now : Instant) :
    Primes p' past ob now ↔ Primes p past ob now := by
  unfold Primes
  rw [hsource, hstart]

theorem waiting_congr {p p' : Processor} (hsource : p'.source = p.source)
    (hstart : p'.start = p.start) {same : Native → Native → Prop}
    {past : List (Observation × Instant)} {n : Native} :
    Waiting same p' past n ↔ Waiting same p past n := by
  unfold Waiting
  simp only [primes_congr hsource hstart]

/-- A new epoch. -/
theorem Listed.reset (epoch source : String) (connected : Bool) (now : Instant) :
    Listed (Processor.reset epoch source connected now) [] := by
  refine ⟨⟨fun _ => List.forall_mem_nil _, fun _ => rfl⟩, fun n => ⟨fun h => ?_, fun h => ?_⟩⟩
  · cases h
  · exact absurd h not_waiting_nil

section Step

variable {L : Libs} {fails : ℕ → Bool} {p : Processor} {past : List (Observation × Instant)}
  {ob : Observation} {now : Instant}

/-- The switch of `Observe`. -/
def Processor.silent (p : Processor) (ob : Observation) (now : Instant) : Bool :=
  decide (p.source ≠ "mqtt" ∧ p.primed = false) ||
    decide (p.source = "mqtt" ∧ now - p.start < seconds 10) || ob.retained

/-- The switch of `Observe` is that of the history. -/
theorem Listed.silent_iff (h : Listed p past) (ob : Observation) (now : Instant) :
    p.silent ob now = true ↔ Primes p past ob now := by
  unfold Primes Processor.silent
  simp only [Bool.or_eq_true, decide_eq_true_eq, h.primed]
  tauto

/-- The members an observation leaves alone, whether or not it has a list. -/
theorem observe_sameNatives (hconn : p.connected = true)
    (hok : (p.observe L fails ob now).ok = true) :
    (p.observe L fails ob now).processor.unknown =
        (Processor.observeNatives L fails p ob now).processor.unknown ∧
      (Processor.observeNatives L fails p ob now).processor.SameNatives
        (p.observe L fails ob now).processor ∧
      (p.observe L fails ob now).calls.filter (·.sample = none) =
        (Processor.observeNatives L fails p ob now).calls.filter (·.sample = none) := by
  obtain ⟨-, -, heq⟩ := Processor.observe_of_ok hconn hok
  rw [heq]
  obtain ⟨hsame, hunknown, hcalls⟩ := Processor.samples_frame L fails ob.retained now 0 ob.samples
    (Processor.observeNatives L fails p ob now).processor
    (Processor.observeNatives L fails p ob now).calls
  have hsweep : ∀ q : Processor, q.SameNatives (q.sweep ob) ∧ (q.sweep ob).unknown = q.unknown := by
    intro q
    unfold Processor.sweep
    split_ifs <;> exact ⟨⟨rfl, rfl, rfl, rfl, rfl⟩, rfl⟩
  exact ⟨(hsweep _).2.trans hunknown, hsame.trans (hsweep _).1, hcalls⟩

/-- The part of an observation about a list in which every call succeeds. -/
theorem observeNatives_of_ok {ns : List Native} (hns : ob.notifications = some ns)
    (hok : (Processor.observeNatives L fails p ob now).ok = true) :
    (Processor.natives L fails (p.silent ob now) now ns p []).ok = true ∧
      (Processor.observeNatives L fails p ob now).calls =
        (Processor.natives L fails (p.silent ob now) now ns p []).calls ∧
      (Processor.observeNatives L fails p ob now).processor =
        { (Processor.natives L fails (p.silent ob now) now ns p []).processor with
          unknown := fun id =>
            if id ∈ ns.map Native.id then
              (Processor.natives L fails (p.silent ob now) now ns p []).processor.unknown id
            else none
          primed := true } := by
  unfold Processor.observeNatives at hok ⊢
  simp only [hns] at hok ⊢
  by_cases h : (Processor.natives L fails (p.silent ob now) now ns p []).ok = true
  · unfold Processor.silent at h ⊢
    simp only [h, if_true]
    exact ⟨trivial, trivial, trivial⟩
  · unfold Processor.silent at h
    rw [if_neg h] at hok
    exact absurd hok h

/-- **An observation** keeps the table in step with the history.

**Proof sketch.** Without a list nothing changes on either side. After a list an entry is left for a
notification of the list without a time, when the list is silent or there was one before. -/
theorem Listed.observe (h : Listed p past) (hconn : p.connected = true) (hdistinct : ob.Distinct)
    (hok : (p.observe L fails ob now).ok = true) :
    Listed (p.observe L fails ob now).processor ((ob, now) :: past) := by
  obtain ⟨hokn, -, -⟩ := Processor.observe_of_ok hconn hok
  obtain ⟨hunknown, hsame, -⟩ := observe_sameNatives hconn hok
  cases hns : ob.notifications with
  | none =>
    have hnatives : (Processor.observeNatives L fails p ob now).processor = p := by
      unfold Processor.observeNatives
      rw [hns]
    rw [hnatives] at hunknown hsame
    have huntimed : ∀ n, Untimed SameIdentity n ob := by
      intro n ns hns'
      rw [hns] at hns'
      cases hns'
    refine ⟨?_, fun n => ?_⟩
    · rw [hsame.primed, h.primed]
      simp [hns]
    · rw [hunknown, h.unknown, waiting_congr hsame.source hsame.start, waiting_cons]
      simp [hns, huntimed]
  | some ns =>
    obtain ⟨hokl, -, hproc⟩ := observeNatives_of_ok hns hokn
    obtain ⟨-, hkept, -, hentry⟩ := Processor.natives_spec L fails (p.silent ob now) now ns p []
      (hdistinct ns hns) hokl
    have hsource : (p.observe L fails ob now).processor.source = p.source := by
      rw [hsame.source, hproc]
      exact hkept.source
    have hstart : (p.observe L fails ob now).processor.start = p.start := by
      rw [hsame.start, hproc]
      exact hkept.start
    refine ⟨?_, fun n => ?_⟩
    · rw [hsame.primed, hproc]
      simp [hns]
    · rw [hunknown, hproc, waiting_congr hsource hstart, waiting_cons, ← h.silent_iff ob now]
      dsimp only
      constructor
      · intro hentered
        split_ifs at hentered with hmem
        obtain ⟨m, hm, hid⟩ := List.mem_map.mp hmem
        rw [← hid, hentry m hm, Processor.entry] at hentered
        split_ifs at hentered with hkeep
        have hsame : SameIdentity m n := Option.some.inj hentered
        refine ⟨fun ns' hns' => ?_, ?_⟩
        · rw [← Option.some.inj (hns.symm.trans hns')]
          exact ⟨m, hm, hid, hkeep.1, hsame⟩
        · refine hkeep.2.imp (fun hprime => ⟨by simp [hns], hprime⟩) fun hold => ?_
          rw [← h.unknown, ← hid, hold, hsame]
      · rintro ⟨huntimed, hwhy⟩
        obtain ⟨m, hm, hid, hzero, hsame⟩ := huntimed ns hns
        have hwhy : p.silent ob now = true ∨ p.unknown m.id = some (Processor.identity m) := by
          refine hwhy.imp (fun hprime => hprime.2) fun hold => ?_
          rw [hid, hsame]
          exact (h.unknown n).mpr hold
        rw [if_pos (List.mem_map.mpr ⟨m, hm, hid⟩), ← hid, hentry m hm, Processor.entry,
          if_pos ⟨hzero, hwhy⟩, hsame]

end Step

/-! ## Whole runs -/

namespace Processing

/-- The lists that are observed have unique identifiers. -/
def Distinct (_ : Processing) : Event → Prop
  | .reset .. => True
  | .observe _ ob _ => ob.Distinct

theorem listed_of_reachable {L : Libs} {s : Processing}
    (h : Transition.Reachable (step L) Distinct Init s) (hconn : s.processor.connected = true) :
    Listed s.processor s.past := by
  revert hconn
  refine h.invariant (I := fun s => s.processor.connected = true → Listed s.processor s.past) ?_ ?_
  · rintro t rfl hconn
    cases hconn
  · intro t e t' ht hdistinct hs hconn
    cases e with
    | reset epoch source connected now =>
      cases epoch with
      | none =>
        obtain rfl := Option.some.inj hs
        exact ht hconn
      | some epoch =>
        obtain rfl := Option.some.inj hs
        exact Listed.reset epoch source connected now
    | observe fails ob now =>
      simp only [step] at hs
      split_ifs at hs with hok
      obtain rfl := Option.some.inj hs
      by_cases hbefore : t.processor.connected = true
      · exact (ht hbefore).observe hbefore hdistinct hok
      · -- A disconnected processor stays as it is.
        rw [show (t.processor.observe L fails ob now).processor = t.processor by
          simp [Processor.observe, hbefore]] at hconn
        exact absurd hconn hbefore

/-- The call for a notification: its payload, its epoch, and whether it is for delivery. -/
def Handed (L : Libs) (same : Native → Native → Prop) (s : Processing) (ob : Observation)
    (now : Instant) (n : Native) (r : Request) : Prop :=
  r.payload = makePayload L "native" (if n.source = "victron" then "victron" else "system")
      n.id n.title n.body n.timestamp now ∧
    r.epoch = s.processor.epoch ∧
    (r.prime = false ↔ Admitted same s.processor s.past ob now n)

/-- The calls that are not about a sample are, in order, those for the notifications whose time is
known. -/
def HandsOver (L : Libs) (same : Native → Native → Prop) (s : Processing) (fails : ℕ → Bool)
    (ob : Observation) (now : Instant) (ns : List Native) : Prop :=
  List.Forall₂ (Handed L same s ob now) (ns.filter (·.timestamp ≠ zeroTime))
    ((s.processor.observe L fails ob now).calls.filter (·.sample = none))

/-- The request of a notification whose time is known. -/
theorem handed_nativeRequest {L : Libs} {s : Processing} (h : Listed s.processor s.past)
    (ob : Observation) (now : Instant) {n : Native} (hn : n.timestamp ≠ zeroTime) :
    Handed L SameIdentity s ob now n
      (Processor.nativeRequest L s.processor (s.processor.silent ob now) now n) := by
  refine ⟨rfl, rfl, ?_⟩
  have hcurrent : (makePayload L "native" (if n.source = "victron" then "victron" else "system")
      n.id n.title n.body n.timestamp now).current now = true ↔ OnTime n now := by
    obtain ⟨-, -, hms⟩ := makePayload_members L "native"
      (if n.source = "victron" then "victron" else "system") n.id n.title n.body n.timestamp now
    unfold Payload.current OnTime
    simp only [hms, Bool.and_eq_true, decide_eq_true_eq, and_assoc]
    rfl
  have hlevel : ¬ (n.level ≠ "warning" ∧ n.level ≠ "error") ↔
      n.level = "warning" ∨ n.level = "error" := by
    rw [not_and_or, not_not, not_not]
  have hstart : ¬ n.timestamp < s.processor.start - maxFutureSkew ↔
      s.processor.start - seconds 30 ≤ n.timestamp := not_lt
  unfold Admitted
  rw [← h.silent_iff, ← h.unknown, ← hcurrent, ← hlevel, ← hstart]
  simp only [Processor.nativeRequest, Bool.or_eq_false_iff, decide_eq_false_iff_not,
    Bool.not_eq_false', Bool.not_eq_true]
  constructor
  · rintro ⟨⟨⟨⟨hsilent, hwaiting⟩, hlevel⟩, hcurrent⟩, hstart⟩
    exact ⟨hsilent, hn, hcurrent, hstart, hlevel, hwaiting⟩
  · rintro ⟨hsilent, -, hcurrent, hstart, hlevel, hwaiting⟩
    exact ⟨⟨⟨⟨hsilent, hwaiting⟩, hlevel⟩, hcurrent⟩, hstart⟩

/-- **Admission.** In every run of `Reset` and `Observe` calls in which no `Enqueue` fails and every
list has unique identifiers, a connected processor calls `Enqueue` once for each notification of a
list whose time is known, in the order of the list, and for no other; the call is for delivery if
and only if the history says so (`Admitted`), where two texts are the same when their titles and
bodies joined with a NUL are.

**Proof sketch.** An entry of the table is that of a notification that waits, which one observation
after another keeps. -/
theorem natives_iff {L : Libs} {s : Processing}
    (h : Transition.Reachable (step L) Distinct Init s) {fails : ℕ → Bool} {ob : Observation}
    {now : Instant} {ns : List Native} (hconn : s.processor.connected = true)
    (hdistinct : ob.Distinct) (hns : ob.notifications = some ns)
    (hok : (s.processor.observe L fails ob now).ok = true) :
    HandsOver L SameIdentity s fails ob now ns := by
  have hlisted := listed_of_reachable h hconn
  obtain ⟨hokn, -, -⟩ := Processor.observe_of_ok hconn hok
  obtain ⟨-, -, hcalls⟩ := observe_sameNatives hconn hok
  obtain ⟨hokl, hnatives, -⟩ := observeNatives_of_ok hns hokn
  obtain ⟨hlist, -⟩ := Processor.natives_spec L fails (s.processor.silent ob now) now ns
    s.processor [] (hdistinct ns hns) hokl
  have hall : ∀ r ∈ (ns.filter (·.timestamp ≠ zeroTime)).map
      (Processor.nativeRequest L s.processor (s.processor.silent ob now) now),
      decide (r.sample = none) = true := by
    intro r hr
    obtain ⟨n, -, rfl⟩ := List.mem_map.mp hr
    rfl
  unfold HandsOver
  rw [hcalls, hnatives, hlist, List.nil_append, List.filter_eq_self.mpr hall,
    List.forall₂_map_right_iff, List.forall₂_same]
  intro n hn
  exact handed_nativeRequest hlisted ob now (by simpa using (List.mem_filter.mp hn).2)

/-! ## A notification behind another text -/

/-- A list with one warning. -/
def warned (title body : String) (timestamp : Instant) : Observation :=
  { notifications := some [⟨"slot", "victron", "warning", title, body, timestamp⟩] }

theorem warned_distinct (title body : String) (timestamp : Instant) :
    (warned title body timestamp).Distinct := by
  intro ns hns
  obtain rfl := Option.some.inj hns
  exact List.nodup_singleton _

/-- The first list since the reset has a warning without a time. -/
def listening : Processing :=
  ⟨((Processor.reset "e1" "gateway" true (seconds 1000)).observe Service.sampleLibs (fun _ => false)
    (warned "a\x00b" "c" zeroTime) (seconds 1000)).processor,
    [(warned "a\x00b" "c" zeroTime, seconds 1000)]⟩

theorem reachable_listening :
    Transition.Reachable (step Service.sampleLibs) Distinct Init listening := by
  have hreset : step Service.sampleLibs {} (.reset (some "e1") "gateway" true (seconds 1000)) =
      some ⟨Processor.reset "e1" "gateway" true (seconds 1000), []⟩ := rfl
  have hok : ((Processor.reset "e1" "gateway" true (seconds 1000)).observe Service.sampleLibs
      (fun _ => false) (warned "a\x00b" "c" zeroTime) (seconds 1000)).ok = true := by
    decide
  have hobserve : step Service.sampleLibs ⟨Processor.reset "e1" "gateway" true (seconds 1000), []⟩
      (.observe (fun _ => false) (warned "a\x00b" "c" zeroTime) (seconds 1000)) =
        some listening := by
    simp only [step, hok, if_true, listening]
  have hdistinct : Distinct ⟨Processor.reset "e1" "gateway" true (seconds 1000), []⟩
      (.observe (fun _ => false) (warned "a\x00b" "c" zeroTime) (seconds 1000)) :=
    warned_distinct _ _ _
  have hinit : Init {} := rfl
  exact ((Transition.Reachable.start hinit).next trivial hreset).next hdistinct hobserve

/-- Another warning has its own time, but the joined text of the first. -/
theorem natives_iff_listening :
    HandsOver Service.sampleLibs SameIdentity listening (fun _ => false)
      (warned "a" "b\x00c" (seconds 1010)) (seconds 1010)
      [⟨"slot", "victron", "warning", "a", "b\x00c", seconds 1010⟩] :=
  natives_iff reachable_listening rfl (warned_distinct _ _ _) rfl (by decide)

/-- It is silent, although its text is another. -/
theorem not_natives_iff_sameText :
    Transition.Reachable (step Service.sampleLibs) Distinct Init listening ∧
      ¬ HandsOver Service.sampleLibs SameText listening (fun _ => false)
        (warned "a" "b\x00c" (seconds 1010)) (seconds 1010)
        [⟨"slot", "victron", "warning", "a", "b\x00c", seconds 1010⟩] := by
  refine ⟨reachable_listening, fun h => ?_⟩
  have hcalls : (((listening.processor.observe Service.sampleLibs (fun _ => false)
      (warned "a" "b\x00c" (seconds 1010)) (seconds 1010)).calls.filter (·.sample = none)).map
        Request.prime) = [true] := by decide
  obtain ⟨r, hr, hprime⟩ := List.map_eq_singleton_iff.mp hcalls
  unfold HandsOver at h
  rw [hr] at h
  obtain ⟨⟨-, -, hiff⟩, -⟩ := List.forall₂_cons.mp h
  rw [hiff.mpr ?_] at hprime
  · cases hprime
  · refine ⟨?_, by decide, ⟨by decide, by decide, by decide⟩, by decide, Or.inl rfl, ?_⟩
    · rintro (hretained | ⟨hsource, -⟩ | ⟨-, hnone⟩)
      · cases hretained
      · revert hsource
        decide
      · cases hnone _ List.mem_cons_self
    · rw [listening, waiting_cons]
      rintro ⟨huntimed, -⟩
      obtain ⟨m, hm, -, -, htitle, -⟩ := huntimed _ rfl
      obtain rfl := List.mem_singleton.mp hm
      revert htitle
      decide

end Processing

end Push
