import InverterDashboard.Gateway.Lifecycle

set_option relaxedAutoImplicit false
set_option autoImplicit false

/-!
# The order of the gateway snapshots

The poll loop and the commands fetch and pass their snapshots to `apply` independently. The loop
is in order with itself, and every command passes at most one snapshot. Between them nothing is
ordered: behind an acknowledgement the loop may still pass the one snapshot it had in flight.

## Main definitions

* `Dashboard.GatewayClient.InOrder` — no snapshot is passed behind one that was fetched later.
* `Dashboard.GatewayClient.Timed` — what is known of the times of a snapshot.
* `Dashboard.GatewayClient.Ordered` — what every reachable state keeps.

## Main results

* `Dashboard.GatewayClient.ordered_step` — one step keeps it.
* `Dashboard.GatewayClient.at_most_one_older` — how far the order is kept.
* `Dashboard.GatewayClient.not_inOrder_of_overwritten` — where it is not.
-/

namespace Dashboard

/-! ## Fetches -/

/-- The snapshot a poll may still pass to `apply`; a fetch that runs has lasted no time yet. -/
def PollPC.snapshot : PollPC → Option FetchedSnapshot
  | .fetching began => some ⟨began, began⟩
  | .fetched snap _ | .checked snap _ | .status snap _ | .reported snap | .ready snap => some snap
  | _ => none

/-- The snapshot a command may still pass to `apply`. -/
def CommandPC.snapshot : CommandPC → Option FetchedSnapshot
  | .fetching began => some ⟨began, began⟩
  | .fetched snap | .checked snap | .confirmed snap | .locked snap | .ready snap => some snap
  | _ => none

/-- Whether the command may have passed its snapshot to `apply`. -/
def CommandPC.passed : CommandPC → Bool
  | .applying _ | .unlocking | .returned => true
  | _ => false

namespace GatewayClient

/-- No snapshot is passed to `apply` behind one whose fetch was started after its own completed. -/
def InOrder (s : GatewayClient) : Prop :=
  s.log.Pairwise fun later earlier => ¬ later.snap.finished < earlier.snap.began

/-- A snapshot was fetched by now. -/
def Timed (s : GatewayClient) (snap : FetchedSnapshot) : Prop :=
  snap.began ≤ snap.finished ∧ snap.finished ≤ s.clock

/-- The poll loop began to fetch a snapshot after it had passed the ones before to `apply`. -/
def Recent (s : GatewayClient) (snap : FetchedSnapshot) : Prop :=
  ∀ a ∈ s.log, a.source = .poll → a.passedAt < snap.began

/-- What every reachable state keeps about the snapshots. -/
structure Ordered (s : GatewayClient) : Prop where
  poll : ∀ i pc f, s.polls i = some pc → pc.snapshot = some f → s.Timed f ∧ s.Recent f
  command : ∀ i pc f, s.commands i = some pc → pc.snapshot = some f → s.Timed f
  passed : ∀ a ∈ s.log, ∀ i, a.source = .command i →
    ∃ pc, s.commands i = some pc ∧ pc.passed = true
  times : ∀ a ∈ s.log, a.snap.began ≤ a.snap.finished ∧ a.snap.finished ≤ a.passedAt ∧
    a.passedAt < s.clock
  later : s.log.Pairwise fun later earlier => earlier.passedAt < later.passedAt
  polled : s.log.Pairwise fun later earlier =>
    later.source = .poll → earlier.source = .poll → earlier.passedAt < later.snap.began
  once : s.log.Pairwise fun later earlier =>
    ∀ i, later.source = .command i → earlier.source ≠ .command i

theorem ordered_of_init {s : GatewayClient} (h : s.Init) : s.Ordered := by
  obtain ⟨-, -, -, -, -, -, -, hpolls, -, -, hcommands, hlog⟩ := h
  constructor
  · intro i pc f hi
    rw [hpolls i] at hi
    cases hi
  · intro i pc f hi
    rw [hcommands i] at hi
    cases hi
  all_goals
    rw [hlog]
    simp

/-! ## Steps -/

namespace Ordered

variable {s s' : GatewayClient}

/-- A step that passes nothing: what is in flight behind it was timed before it. -/
theorem move (h : s.Ordered) (hclock : s'.clock = s.clock) (hlog : s'.log = s.log)
    (hpolls : ∀ i pc f, s'.polls i = some pc → pc.snapshot = some f → s.Timed f ∧ s.Recent f)
    (hcommands : ∀ i pc f, s'.commands i = some pc → pc.snapshot = some f → s.Timed f)
    (hpassed : ∀ i pc, s.commands i = some pc → pc.passed = true →
      ∃ pc', s'.commands i = some pc' ∧ pc'.passed = true) : s'.tick.Ordered := by
  have htimed : ∀ f, s.Timed f → s'.tick.Timed f := by
    rintro f ⟨hbegan, hfinished⟩
    refine ⟨hbegan, ?_⟩
    show f.finished ≤ s'.clock + 1
    omega
  refine ⟨fun i pc f hi hf => ?_, fun i pc f hi hf => htimed f (hcommands i pc f hi hf),
    fun a ha i hsource => ?_, fun a ha => ?_, ?_, ?_, ?_⟩
  · obtain ⟨ht, hr⟩ := hpolls i pc f hi hf
    exact ⟨htimed f ht, fun a ha => hr a (hlog ▸ ha)⟩
  · obtain ⟨pc, hi, hp⟩ := h.passed a (hlog ▸ ha) i hsource
    exact hpassed i pc hi hp
  · obtain ⟨hbegan, hfinished, hat⟩ := h.times a (hlog ▸ ha)
    refine ⟨hbegan, hfinished, ?_⟩
    show a.passedAt < s'.clock + 1
    omega
  · exact hlog ▸ h.later
  · exact hlog ▸ h.polled
  · exact hlog ▸ h.once

/-- A step of `Start` or `Stop`. -/
theorem frame (h : s.Ordered) (hclock : s'.clock = s.clock) (hlog : s'.log = s.log)
    (hpolls : ∀ i pc, s'.polls i = some pc → s.polls i = some pc ∨ pc = .polling)
    (hcommands : s'.commands = s.commands) : s'.tick.Ordered := by
  refine h.move hclock hlog (fun i pc f hi hf => ?_) (fun i pc f hi hf => ?_)
    fun i pc hi hp => ⟨pc, hcommands ▸ hi, hp⟩
  · rcases hpolls i pc hi with hi | rfl
    · exact h.poll i pc f hi hf
    · cases hf
  · exact h.command i pc f (hcommands ▸ hi) hf

/-- The poll loop goes on with a snapshot that is timed. -/
theorem movePoll (h : s.Ordered) {i : ℕ} {pc' : PollPC} (connected : Bool) (closes : ℕ)
    (hsnap : ∀ f, pc'.snapshot = some f → s.Timed f ∧ s.Recent f) :
    ({ s with connected := connected, closes := closes }.setPoll i pc').tick.Ordered := by
  refine h.move rfl rfl ?_ h.command fun i pc hi hp => ⟨pc, hi, hp⟩
  intro k pc f hk hf
  rcases Threads.update_eq_some hk with ⟨rfl, rfl⟩ | ⟨-, hk⟩
  · exact hsnap f hf
  · exact h.poll k pc f hk hf

/-- The poll loop passes its snapshot. -/
theorem passPoll (h : s.Ordered) (hinv : s.Inv) {i : ℕ} {snap : FetchedSnapshot}
    (hi : s.polls i = some (.ready snap)) :
    ((s.pass .poll snap).setPoll i (.applying snap)).tick.Ordered := by
  obtain ⟨⟨hbegan, hfinished⟩, hrecent⟩ := h.poll i _ snap hi rfl
  refine ⟨?_, fun k pc f hk hf => ?_, ?_, ?_, ?_, ?_, ?_⟩
  · intro k pc f hk hf
    rcases Threads.update_eq_some hk with ⟨rfl, rfl⟩ | ⟨hne, hk⟩
    · cases hf
    · exact absurd (hinv.single k i _ _ hk hi) hne
  · obtain ⟨hb, hf⟩ := h.command k pc f hk hf
    exact ⟨hb, hf.trans (Nat.le_succ _)⟩
  · intro a ha k hsource
    rcases List.mem_cons.mp ha with rfl | ha
    · cases hsource
    · exact h.passed a ha k hsource
  · intro a ha
    rcases List.mem_cons.mp ha with rfl | ha
    · exact ⟨hbegan, hfinished, Nat.lt_succ_self _⟩
    · obtain ⟨hb, hf, hat⟩ := h.times a ha
      exact ⟨hb, hf, hat.trans (Nat.lt_succ_self _)⟩
  · exact List.Pairwise.cons (fun a ha => (h.times a ha).2.2) h.later
  · exact List.Pairwise.cons (fun a ha _ hsource => hrecent a ha hsource) h.polled
  · exact List.Pairwise.cons (fun a ha k hsource => (by cases hsource)) h.once

/-- A command goes on with a snapshot that is timed, and it has not passed any. -/
theorem moveCommand (h : s.Ordered) {i : ℕ} {pc pc' : CommandPC} (mu : Option ApplyCaller)
    (hi : s.commands i = some pc) (hpassed : pc.passed = true → pc'.passed = true)
    (hsnap : ∀ f, pc'.snapshot = some f → s.Timed f) :
    ({ s with commandApplyMu := mu }.setCommand i pc').tick.Ordered := by
  refine h.move rfl rfl h.poll ?_ ?_
  · intro k pc f hk hf
    rcases Threads.update_eq_some hk with ⟨rfl, rfl⟩ | ⟨-, hk⟩
    · exact hsnap f hf
    · exact h.command k pc f hk hf
  · intro k p hk hp
    by_cases hki : k = i
    · subst hki
      obtain rfl := Option.some.inj (hi.symm.trans hk)
      exact ⟨pc', Function.update_self .., hpassed hp⟩
    · exact ⟨p, Threads.update_of_ne hki hk, hp⟩

/-- A command passes its snapshot. -/
theorem passCommand (h : s.Ordered) {i : ℕ} {snap : FetchedSnapshot}
    (hi : s.commands i = some (.ready snap)) :
    ((s.pass (.command i) snap).setCommand i (.applying snap)).tick.Ordered := by
  obtain ⟨hbegan, hfinished⟩ := h.command i _ snap hi rfl
  refine ⟨?_, ?_, ?_, ?_, ?_, ?_, ?_⟩
  · intro k pc f hk hf
    obtain ⟨⟨hb, hf⟩, hr⟩ := h.poll k pc f hk hf
    refine ⟨⟨hb, hf.trans (Nat.le_succ _)⟩, fun a ha hsource => ?_⟩
    rcases List.mem_cons.mp ha with rfl | ha
    · cases hsource
    · exact hr a ha hsource
  · intro k pc f hk hf
    rcases Threads.update_eq_some hk with ⟨rfl, rfl⟩ | ⟨-, hk⟩
    · cases hf
    · obtain ⟨hb, hf⟩ := h.command k pc f hk hf
      exact ⟨hb, hf.trans (Nat.le_succ _)⟩
  · intro a ha k hsource
    rcases List.mem_cons.mp ha with rfl | ha
    · obtain rfl := SnapshotSource.command.inj hsource
      exact ⟨_, Function.update_self .., rfl⟩
    · obtain ⟨pc, hk, hp⟩ := h.passed a ha k hsource
      refine ⟨pc, Threads.update_of_ne ?_ hk, hp⟩
      rintro rfl
      obtain rfl := Option.some.inj (hi.symm.trans hk)
      cases hp
  · intro a ha
    rcases List.mem_cons.mp ha with rfl | ha
    · exact ⟨hbegan, hfinished, Nat.lt_succ_self _⟩
    · obtain ⟨hb, hf, hat⟩ := h.times a ha
      exact ⟨hb, hf, hat.trans (Nat.lt_succ_self _)⟩
  · exact List.Pairwise.cons (fun a ha => (h.times a ha).2.2) h.later
  · exact List.Pairwise.cons (fun a ha hsource => (by cases hsource)) h.polled
  · refine List.Pairwise.cons (fun a ha k hsource hother => ?_) h.once
    -- A command that passed a snapshot is behind `apply`, and this one is before it.
    obtain rfl := SnapshotSource.command.inj hsource
    obtain ⟨pc, hk, hp⟩ := h.passed a ha i hother
    obtain rfl := Option.some.inj (hi.symm.trans hk)
    cases hp

end Ordered

/-- What began to be fetched now is timed. -/
theorem Ordered.timed_now {s : GatewayClient} (h : s.Ordered) :
    s.Timed ⟨s.clock, s.clock⟩ ∧ s.Recent ⟨s.clock, s.clock⟩ :=
  ⟨⟨le_refl _, le_refl _⟩, fun a ha _ => (h.times a ha).2.2⟩

/-- **Step of a poll loop.** -/
theorem ordered_stepPoll {s s' : GatewayClient} {i : ℕ} {ok : Bool} {pc : PollPC} (h : s.Ordered)
    (hinv : s.Inv) (hi : s.polls i = some pc) (hs : s.stepPoll i ok pc = some s') :
    s'.tick.Ordered := by
  have hin := h.poll i pc
  cases pc with
  | polling =>
    obtain rfl := Option.some.inj hs
    refine h.movePoll s.connected s.closes fun f hf => ?_
    split at hf
    · cases hf
    · exact Option.some.inj hf ▸ h.timed_now
  | fetching began =>
    obtain rfl := Option.some.inj hs
    refine h.movePoll s.connected s.closes fun f hf => ?_
    obtain ⟨⟨-, hnow⟩, hrecent⟩ := hin _ hi rfl
    exact Option.some.inj hf ▸ ⟨⟨hnow, le_refl _⟩, hrecent⟩
  | fetched snap ok' =>
    obtain rfl := Option.some.inj hs
    refine h.movePoll s.connected s.closes fun f hf => ?_
    split at hf
    · cases hf
    · exact hin f hi hf
  | checked snap ok' =>
    obtain rfl := Option.some.inj hs
    refine h.movePoll ok' s.closes fun f hf => ?_
    split_ifs at hf
    · exact hin f hi hf
    · exact hin f hi hf
    · cases hf
  | status snap ok' =>
    obtain rfl := Option.some.inj hs
    refine h.movePoll s.connected s.closes fun f hf => ?_
    split at hf
    · exact hin f hi hf
    · cases hf
  | reported snap =>
    obtain rfl := Option.some.inj hs
    refine h.movePoll s.connected s.closes fun f hf => ?_
    split at hf
    · exact hin f hi hf
    · cases hf
  | ready snap =>
    obtain rfl := Option.some.inj hs
    exact h.passPoll hinv hi
  | applying snap =>
    obtain rfl := Option.some.inj hs
    exact h.movePoll s.connected s.closes fun f hf => (by cases hf)
  | waiting =>
    simp only [stepPoll] at hs
    split_ifs at hs
    · obtain rfl := Option.some.inj hs
      exact h.movePoll s.connected s.closes fun f hf => (by cases hf)
    · obtain rfl := Option.some.inj hs
      exact h.movePoll s.connected s.closes fun f hf => (by cases hf)
  | leaving =>
    obtain rfl := Option.some.inj hs
    exact h.movePoll false s.closes fun f hf => (by cases hf)
  | closing =>
    obtain rfl := Option.some.inj hs
    exact h.movePoll s.connected (s.closes + 1) fun f hf => (by cases hf)
  | exited => cases hs

/-- **Step of a command.** -/
theorem ordered_stepCommand {s s' : GatewayClient} {i : ℕ} {outcome : CommandOutcome}
    {pc : CommandPC} (h : s.Ordered) (hi : s.commands i = some pc)
    (hs : s.stepCommand i outcome pc = some s') : s'.tick.Ordered := by
  have hin := h.command i pc
  cases pc with
  | posting =>
    obtain rfl := Option.some.inj hs
    refine h.moveCommand s.commandApplyMu hi (fun hp => (by cases hp)) fun f hf => ?_
    split at hf <;> cases hf
  | awaiting =>
    obtain rfl := Option.some.inj hs
    refine h.moveCommand s.commandApplyMu hi (fun hp => (by cases hp)) fun f hf => ?_
    split at hf
    · cases hf
    · exact Option.some.inj hf ▸ h.timed_now.1
  | fetching began =>
    obtain rfl := Option.some.inj hs
    refine h.moveCommand s.commandApplyMu hi (fun hp => (by cases hp)) fun f hf => ?_
    obtain ⟨-, hnow⟩ := hin _ hi rfl
    split at hf
    · cases hf
    · exact Option.some.inj hf ▸ ⟨hnow, le_refl _⟩
  | fetched snap =>
    obtain rfl := Option.some.inj hs
    refine h.moveCommand s.commandApplyMu hi (fun hp => (by cases hp)) fun f hf => ?_
    split at hf
    · cases hf
    · exact hin f hi hf
  | checked snap =>
    cases outcome with
    | fail =>
      obtain rfl := Option.some.inj hs
      exact h.moveCommand s.commandApplyMu hi (fun hp => (by cases hp)) fun f hf => (by cases hf)
    | unconfirmed =>
      obtain rfl := Option.some.inj hs
      exact h.moveCommand s.commandApplyMu hi (fun hp => (by cases hp)) fun f hf => (by cases hf)
    | ok =>
      obtain rfl := Option.some.inj hs
      exact h.moveCommand s.commandApplyMu hi (fun hp => (by cases hp)) fun f hf => hin f hi hf
  | ticking =>
    obtain rfl := Option.some.inj hs
    refine h.moveCommand s.commandApplyMu hi (fun hp => (by cases hp)) fun f hf => ?_
    split at hf <;> cases hf
  | confirmed snap =>
    simp only [stepCommand] at hs
    split_ifs at hs
    obtain rfl := Option.some.inj hs
    exact h.moveCommand _ hi (fun hp => (by cases hp)) fun f hf => hin f hi hf
  | locked snap =>
    obtain rfl := Option.some.inj hs
    refine h.moveCommand s.commandApplyMu hi (fun hp => (by cases hp)) fun f hf => ?_
    split at hf
    · cases hf
    · exact hin f hi hf
  | ready snap =>
    obtain rfl := Option.some.inj hs
    exact h.passCommand hi
  | applying snap =>
    obtain rfl := Option.some.inj hs
    exact h.moveCommand s.commandApplyMu hi (fun _ => rfl) fun f hf => (by cases hf)
  | unlocking =>
    obtain rfl := Option.some.inj hs
    exact h.moveCommand none hi (fun _ => rfl) fun f hf => (by cases hf)
  | returned => cases hs

/-- What `Stop` leaves alone. -/
theorem stepStop_frame {s s' : GatewayClient} {i : ℕ} {pc : StopPC}
    (hs : s.stepStop i pc = some s') :
    s'.clock = s.clock ∧ s'.log = s.log ∧ s'.polls = s.polls ∧ s'.commands = s.commands := by
  cases pc with
  | called | locked | cancelled | waiting | joining =>
    simp only [stepStop] at hs
    split_ifs at hs <;> exact Option.some.inj hs ▸ ⟨rfl, rfl, rfl, rfl⟩
  | stopping | unlocking | joined => exact Option.some.inj hs ▸ ⟨rfl, rfl, rfl, rfl⟩
  | returned => cases hs

/-- `Start` launches a loop that has fetched nothing, and leaves the rest alone. -/
theorem stepStart_frame {s s' : GatewayClient} {i : ℕ} {pc : StartPC}
    (hs : s.stepStart i pc = some s') :
    s'.clock = s.clock ∧ s'.log = s.log ∧ s'.commands = s.commands ∧
      ∀ k p, s'.polls k = some p → s.polls k = some p ∨ p = .polling := by
  cases pc with
  | called =>
    simp only [stepStart] at hs
    split_ifs at hs
    exact Option.some.inj hs ▸ ⟨rfl, rfl, rfl, fun k p hk => Or.inl hk⟩
  | locked =>
    simp only [stepStart] at hs
    split_ifs at hs
    · exact Option.some.inj hs ▸ ⟨rfl, rfl, rfl, fun k p hk => Or.inl hk⟩
    · refine Option.some.inj hs ▸ ⟨rfl, rfl, rfl, fun k p hk => ?_⟩
      rcases Threads.update_eq_some hk with ⟨-, rfl⟩ | ⟨-, hk⟩
      · exact Or.inr rfl
      · exact Or.inl hk
  | unlocking => exact Option.some.inj hs ▸ ⟨rfl, rfl, rfl, fun k p hk => Or.inl hk⟩
  | returned => cases hs

/-- **Step.** -/
theorem ordered_step {s s' : GatewayClient} {e : GatewayEvent} (h : s.Ordered) (hinv : s.Inv)
    (hs : s.step e = some s') : s'.Ordered := by
  obtain ⟨s₁, hact, rfl⟩ := Option.map_eq_some_iff.mp hs
  cases e with
  | callStart i | callStop i =>
    simp only [act] at hact
    split_ifs at hact
    obtain rfl := Option.some.inj hact
    exact h.frame rfl rfl (fun k p hk => Or.inl hk) rfl
  | callCommand i =>
    simp only [act] at hact
    split_ifs at hact with hnone
    obtain rfl := Option.some.inj hact
    refine h.move rfl rfl h.poll ?_ fun k p hk hp => ⟨p, Threads.update_of_ne ?_ hk, hp⟩
    · intro k pc f hk hf
      rcases Threads.update_eq_some hk with ⟨rfl, rfl⟩ | ⟨-, hk⟩
      · cases hf
      · exact h.command k pc f hk hf
    · rintro rfl
      rw [hnone] at hk
      cases hk
  | start i =>
    obtain ⟨pc, -, hnext⟩ := Option.bind_eq_some_iff.mp hact
    obtain ⟨hclock, hlog, hcommands, hpolls⟩ := stepStart_frame hnext
    exact h.frame hclock hlog hpolls hcommands
  | stop i =>
    obtain ⟨pc, -, hnext⟩ := Option.bind_eq_some_iff.mp hact
    obtain ⟨hclock, hlog, hpolls, hcommands⟩ := stepStop_frame hnext
    exact h.frame hclock hlog (fun k p hk => Or.inl (hpolls ▸ hk)) hcommands
  | poll i ok =>
    obtain ⟨pc, hi, hnext⟩ := Option.bind_eq_some_iff.mp hact
    exact ordered_stepPoll h hinv hi hnext
  | command i outcome =>
    obtain ⟨pc, hi, hnext⟩ := Option.bind_eq_some_iff.mp hact
    exact ordered_stepCommand h hi hnext

/-! ## The result -/

/-- The poll loop is in order with itself. -/
theorem Ordered.polls_inOrder {s : GatewayClient} (h : s.Ordered) :
    s.log.Pairwise fun later earlier =>
      later.source = .poll → earlier.source = .poll →
      ¬ later.snap.finished < earlier.snap.began := by
  refine List.Pairwise.imp_of_mem (fun {later earlier} hl he hpolled hpl hpe => ?_) h.polled
  have hlater := h.times later hl
  have hearlier := h.times earlier he
  have := hpolled hpl hpe
  omega

/-- Behind a snapshot that was passed later than its own fetch, the poll loop has passed nothing
before it. -/
theorem Ordered.first_of_older {s : GatewayClient} (h : s.Ordered)
    {newer older : List AppliedSnapshot} {a b : AppliedSnapshot}
    (hlog : s.log = newer ++ b :: older)
    (ha : a ∈ newer) (hpoll : a.source = .poll) (hold : a.snap.finished < b.snap.began) :
    (newer.filter (·.source = .poll)).getLast? = some a := by
  obtain ⟨after, between, rfl⟩ := List.append_of_mem ha
  have hbetween : between.filter (·.source = .poll) = [] := by
    refine List.filter_eq_nil_iff.mpr fun c hc hcpoll => ?_
    have hcpoll : c.source = .poll := by simpa using hcpoll
    have hpolled := h.polled
    have hlater := h.later
    rw [hlog, List.append_assoc, List.cons_append] at hpolled hlater
    -- The loop began to fetch `a` behind `c`, and `c` was passed behind `b`.
    have hac : c.passedAt < a.snap.began :=
      List.rel_of_pairwise_cons (List.pairwise_append.mp hpolled).2.1
        (List.mem_append_left _ hc) hpoll hcpoll
    have hcb : b.passedAt < c.passedAt :=
      (List.pairwise_append.mp (List.pairwise_append.mp hlater).2.1.of_cons).2.2 c hc b
        List.mem_cons_self
    have hb := h.times b (hlog ▸ List.mem_append_right _ List.mem_cons_self)
    have ha := h.times a (hlog ▸ List.mem_append_left _ ha)
    omega
  rw [List.filter_append, List.filter_cons_of_pos (by simpa using hpoll), hbetween,
    List.getLast?_append]
  rfl

/-- **How far the snapshots are in order.** The snapshots of the poll loop are passed to `apply` in
the order of their fetches. Behind a snapshot that was fetched later, the poll loop passes at most
the one snapshot that it had in flight: its first since. A command passes at most one snapshot.

**Proof sketch.** The loop fetches a snapshot behind the last one it has passed, and a snapshot is
passed behind its own fetch. -/
theorem at_most_one_older {s : GatewayClient}
    (h : Transition.Reachable step (fun _ _ => True) Init s) :
    (s.log.Pairwise fun later earlier => later.source = .poll → earlier.source = .poll →
        ¬ later.snap.finished < earlier.snap.began) ∧
      (∀ newer b older, s.log = newer ++ b :: older → ∀ a ∈ newer, a.source = .poll →
        a.snap.finished < b.snap.began →
          (newer.filter (·.source = .poll)).getLast? = some a) ∧
      s.log.Pairwise fun later earlier =>
        ∀ i, later.source = .command i → earlier.source ≠ .command i := by
  obtain ⟨-, hordered⟩ := h.invariant (I := fun s => s.Inv ∧ s.Ordered)
    (fun _ hs => ⟨inv_of_init hs, ordered_of_init hs⟩)
    fun _ _ _ hi _ hs => ⟨inv_step hi.1 hs, ordered_step hi.2 hi.1 hs⟩
  exact ⟨hordered.polls_inOrder,
    fun newer b older hlog a ha hpoll hold => hordered.first_of_older hlog ha hpoll hold,
    hordered.once⟩

/-- The poll loop has fetched a snapshot; then a command is acknowledged by a snapshot of its own,
and the loop goes on with the older one. -/
def overwritten : List GatewayEvent :=
  [(1, .callStart 0), (3, .start 0), (1, .callCommand 0), (1, .command 0 .ok), (2, .poll 0 true),
    (8, .command 0 .ok), (5, .poll 0 true)].flatMap fun (n, e) => List.replicate n e

/-- What was passed to `apply` there. -/
def overwrittenLog : List AppliedSnapshot :=
  [⟨.poll, ⟨6, 7⟩, 20⟩, ⟨.command 0, ⟨8, 9⟩, 14⟩]

theorem reachable_overwritten : ∃ s,
    Transition.Reachable step (fun _ _ => True) Init s ∧ s.log = overwrittenLog := by
  obtain ⟨s, hs, hp⟩ := Transition.Reachable.exists_of_run step (fun _ _ => True) overwritten
    (fun s => s.log == overwrittenLog) init_idle
    (Transition.Allowed.of_forall (fun _ _ => trivial) _) (by decide)
  exact ⟨s, hs, beq_iff_eq.mp hp⟩

/-- A snapshot that confirms an override is overwritten by one that was taken before. -/
theorem not_inOrder_of_overwritten : ∃ s,
    Transition.Reachable step (fun _ _ => True) Init s ∧ ¬ s.InOrder := by
  obtain ⟨s, hs, hlog⟩ := reachable_overwritten
  refine ⟨s, hs, ?_⟩
  rw [InOrder, hlog]
  decide

/-- The older snapshot is the first that the poll loop passes since. -/
theorem at_most_one_older_overwritten : ∃ s newer b older a,
    Transition.Reachable step (fun _ _ => True) Init s ∧ s.log = newer ++ b :: older ∧
      a ∈ newer ∧ a.source = .poll ∧ a.snap.finished < b.snap.began ∧
      (newer.filter (·.source = .poll)).getLast? = some a := by
  obtain ⟨s, hs, hlog⟩ := reachable_overwritten
  replace hlog : s.log = [⟨.poll, ⟨6, 7⟩, 20⟩] ++ ⟨.command 0, ⟨8, 9⟩, 14⟩ :: [] := hlog
  obtain ⟨-, hfirst, -⟩ := at_most_one_older hs
  refine ⟨s, _, _, _, ⟨.poll, ⟨6, 7⟩, 20⟩, hs, hlog, by decide, rfl, by decide, ?_⟩
  exact hfirst _ _ _ hlog _ (by decide) rfl (by decide)

end GatewayClient

end Dashboard
