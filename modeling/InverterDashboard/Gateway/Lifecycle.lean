import InverterDashboard.Lib.Threads
import InverterDashboard.Lib.Transition

set_option relaxedAutoImplicit false
set_option autoImplicit false

/-!
# The life of a gateway client

`Start` launches the poll loop, `Stop` cancels it and waits for it, and any number of `PostCommand`
calls run beside it. A poll passes its snapshot to the callbacks from the loop, which closes `done`
when it ends; an acknowledged override passes its snapshot to `apply` inside `commandApplyMu`.
A snapshot is represented by the times at which its fetch began and finished. The end of a command's
deadline, and what the gateway answers, are left open.

## Main definitions

* `Dashboard.PollPC`, `Dashboard.StopPC`, `Dashboard.StartPC`, `Dashboard.CommandPC` — where the
  threads stand.
* `Dashboard.GatewayClient`, `Dashboard.GatewayClient.step` — the system.
* `Dashboard.GatewayClient.Running` — a callback runs.

## Main results

* `Dashboard.GatewayClient.inv_step` — what every step keeps.
* `Dashboard.GatewayClient.stop_barrier` — when a call of `Stop` has returned, no callback runs.
-/

namespace Dashboard

/-! ## The system -/

/-- A fetched snapshot: when its fetch began and when it finished. -/
structure FetchedSnapshot where
  began : ℕ
  finished : ℕ
  deriving DecidableEq

/-- Where the poll loop stands. -/
inductive PollPC where
  /-- Before `pollOnce`. -/
  | polling
  /-- In `FetchSnapshot`. -/
  | fetching (began : ℕ)
  /-- Behind `FetchSnapshot`, before the context is checked. -/
  | fetched (snap : FetchedSnapshot) (ok : Bool)
  /-- The context was checked, before `connected` is set. -/
  | checked (snap : FetchedSnapshot) (ok : Bool)
  /-- In `onStatus`. -/
  | status (snap : FetchedSnapshot) (ok : Bool)
  /-- Behind `onStatus(true)`, before the context is checked again. -/
  | reported (snap : FetchedSnapshot)
  /-- The context was checked again, before `apply`. -/
  | ready (snap : FetchedSnapshot)
  /-- In `apply`. -/
  | applying (snap : FetchedSnapshot)
  /-- At the `select`. -/
  | waiting
  /-- The loop has returned, before `connected` is cleared. -/
  | leaving
  /-- Before `done` is closed. -/
  | closing
  /-- Gone. -/
  | exited
  deriving DecidableEq

/-- Whether a callback of the poll loop runs. -/
def PollPC.inCallback : PollPC → Bool
  | .status _ _ | .applying _ => true
  | _ => false

/-- Whether the poll loop has seen the end of the context. -/
def PollPC.ending : PollPC → Bool
  | .leaving | .closing | .exited => true
  | _ => false

/-- Where a call of `Start` stands. -/
inductive StartPC where
  /-- Before `lifecycleMu` is taken. -/
  | called
  /-- Inside `lifecycleMu`. -/
  | locked
  /-- Inside `lifecycleMu`, about to leave. -/
  | unlocking
  /-- Returned. -/
  | returned
  deriving DecidableEq

/-- Whether the call is inside `lifecycleMu`. -/
def StartPC.holds : StartPC → Bool
  | .locked | .unlocking => true
  | _ => false

/-- Where a call of `Stop` stands. -/
inductive StopPC where
  /-- Before `lifecycleMu` is taken. -/
  | called
  /-- Inside `lifecycleMu`. -/
  | locked
  /-- The client is stopped, before the context is cancelled. -/
  | stopping
  /-- The context is cancelled, before `started` is read. -/
  | cancelled
  /-- Inside `lifecycleMu`, about to leave. -/
  | unlocking
  /-- Before `done` is received from. -/
  | waiting
  /-- Before `commandApplyMu` is taken. -/
  | joining
  /-- Inside `commandApplyMu`. -/
  | joined
  /-- Returned. -/
  | returned
  deriving DecidableEq

/-- Whether the call is inside `lifecycleMu`. -/
def StopPC.holds : StopPC → Bool
  | .locked | .stopping | .cancelled | .unlocking => true
  | _ => false

/-- Whether the call is the one that stops the client, before it may close `done`. -/
def StopPC.first : StopPC → Bool
  | .stopping | .cancelled => true
  | _ => false

/-- Whether the call has received from `done`. -/
def StopPC.received : StopPC → Bool
  | .joining | .joined | .returned => true
  | _ => false

/-- Whether the call has been inside `commandApplyMu`. -/
def StopPC.barred : StopPC → Bool
  | .joined | .returned => true
  | _ => false

/-- The first call is inside `lifecycleMu` until it may close `done`. -/
theorem StopPC.holds_of_first {pc : StopPC} : pc.first = true → pc.holds = true := by
  cases pc <;> decide

/-- A call that was inside `commandApplyMu` is behind everything else. -/
theorem StopPC.received_of_barred {pc : StopPC} :
    pc.barred = true → pc.received = true ∧ pc.holds = false ∧ pc.first = false := by
  cases pc <;> decide

/-- Where a call of `PostCommand` stands. -/
inductive CommandPC where
  /-- Before the answer to the command. -/
  | posting
  /-- In `awaitOverride`, before the contexts are checked. -/
  | awaiting
  /-- In `FetchSnapshot`. -/
  | fetching (began : ℕ)
  /-- Behind `FetchSnapshot`, before the contexts are checked. -/
  | fetched (snap : FetchedSnapshot)
  /-- The contexts were checked, before the snapshot is looked at. -/
  | checked (snap : FetchedSnapshot)
  /-- The snapshot does not acknowledge the override yet. -/
  | ticking
  /-- The snapshot acknowledges the override, before `commandApplyMu` is taken. -/
  | confirmed (snap : FetchedSnapshot)
  /-- Inside `commandApplyMu`, before the contexts are checked. -/
  | locked (snap : FetchedSnapshot)
  /-- Inside `commandApplyMu`, before `apply`. -/
  | ready (snap : FetchedSnapshot)
  /-- In `apply`. -/
  | applying (snap : FetchedSnapshot)
  /-- Inside `commandApplyMu`, about to leave. -/
  | unlocking
  /-- Returned. -/
  | returned
  deriving DecidableEq

/-- Whether the call is inside `commandApplyMu`. -/
def CommandPC.holds : CommandPC → Bool
  | .locked _ | .ready _ | .applying _ | .unlocking => true
  | _ => false

/-- Whether the call is behind its last check of the contexts and in `apply` or before it. -/
def CommandPC.live : CommandPC → Bool
  | .ready _ | .applying _ => true
  | _ => false

/-- `apply` is called inside `commandApplyMu`. -/
theorem CommandPC.holds_of_live {pc : CommandPC} : pc.live = true → pc.holds = true := by
  cases pc <;> simp [live, holds]

/-- What the deadline of a command and the gateway decide for its next step. -/
inductive CommandOutcome where
  /-- The deadline of the command has ended, or what it does fails. -/
  | fail
  /-- The snapshot does not acknowledge the override, or the command is none. -/
  | unconfirmed
  /-- The call goes on. -/
  | ok
  deriving DecidableEq

/-- Who holds `lifecycleMu`. -/
inductive LifecycleCaller where
  | start (i : ℕ)
  | stop (i : ℕ)
  deriving DecidableEq

/-- Who holds `commandApplyMu`. -/
inductive ApplyCaller where
  | stop (i : ℕ)
  | command (i : ℕ)
  deriving DecidableEq

/-- Who passes a snapshot to `apply`: the poll loop or a command. -/
inductive SnapshotSource where
  | poll
  | command (i : ℕ)
  deriving DecidableEq

/-- A snapshot that was passed to `apply`, and when. -/
structure AppliedSnapshot where
  source : SnapshotSource
  snap : FetchedSnapshot
  passedAt : ℕ
  deriving DecidableEq

/-- The number of steps taken, whether the callbacks are set, the fields of the client, how often
`done` was closed, the poll loops by the call of `Start` that launched them, the calls, and the
snapshots passed to `apply`, the latest first. -/
structure GatewayClient where
  clock : ℕ
  hasApply : Bool
  hasStatus : Bool
  lifecycleMu : Option LifecycleCaller
  commandApplyMu : Option ApplyCaller
  started : Bool
  stopped : Bool
  cancelled : Bool
  connected : Bool
  closes : ℕ
  polls : ℕ → Option PollPC
  starts : ℕ → Option StartPC
  stops : ℕ → Option StopPC
  commands : ℕ → Option CommandPC
  log : List AppliedSnapshot

/-- What can happen. -/
inductive GatewayEvent where
  /-- `Start` is called. -/
  | callStart (i : ℕ)
  /-- `Stop` is called. -/
  | callStop (i : ℕ)
  /-- `PostCommand` is called. -/
  | callCommand (i : ℕ)
  /-- A call of `Start` takes its next step. -/
  | start (i : ℕ)
  /-- A call of `Stop` takes its next step. -/
  | stop (i : ℕ)
  /-- A poll loop takes its next step: `ok` is whether the fetch succeeds or the ticker fires. -/
  | poll (i : ℕ) (ok : Bool)
  /-- A command takes its next step. -/
  | command (i : ℕ) (outcome : CommandOutcome)

namespace GatewayClient

/-- The client with the poll loop `i` replaced. -/
def setPoll (s : GatewayClient) (i : ℕ) (pc : PollPC) : GatewayClient :=
  { s with polls := Function.update s.polls i (some pc) }

/-- The client with the call `i` of `Start` replaced. -/
def setStart (s : GatewayClient) (i : ℕ) (pc : StartPC) : GatewayClient :=
  { s with starts := Function.update s.starts i (some pc) }

/-- The client with the call `i` of `Stop` replaced. -/
def setStop (s : GatewayClient) (i : ℕ) (pc : StopPC) : GatewayClient :=
  { s with stops := Function.update s.stops i (some pc) }

/-- The client with the command `i` replaced. -/
def setCommand (s : GatewayClient) (i : ℕ) (pc : CommandPC) : GatewayClient :=
  { s with commands := Function.update s.commands i (some pc) }

/-- A snapshot is passed to `apply`. -/
def pass (s : GatewayClient) (source : SnapshotSource) (snap : FetchedSnapshot) : GatewayClient :=
  { s with log := ⟨source, snap, s.clock⟩ :: s.log }

/-- The next step of `Start`. -/
def stepStart (s : GatewayClient) (i : ℕ) : StartPC → Option GatewayClient
  | .called =>
    if s.lifecycleMu = none then
      some ({ s with lifecycleMu := some (.start i) }.setStart i .locked)
    else none
  | .locked =>
    if s.started || s.stopped then some (s.setStart i .unlocking)
    else some (({ s with started := true }.setPoll i .polling).setStart i .unlocking)
  | .unlocking => some ({ s with lifecycleMu := none }.setStart i .returned)
  | .returned => none

/-- The next step of `Stop`. -/
def stepStop (s : GatewayClient) (i : ℕ) : StopPC → Option GatewayClient
  | .called =>
    if s.lifecycleMu = none then
      some ({ s with lifecycleMu := some (.stop i) }.setStop i .locked)
    else none
  | .locked =>
    if s.stopped then some (s.setStop i .unlocking)
    else some ({ s with stopped := true }.setStop i .stopping)
  | .stopping => some ({ s with cancelled := true }.setStop i .cancelled)
  | .cancelled =>
    if s.started then some (s.setStop i .unlocking)
    else some ({ s with closes := s.closes + 1 }.setStop i .unlocking)
  | .unlocking => some ({ s with lifecycleMu := none }.setStop i .waiting)
  | .waiting => if s.closes = 0 then none else some (s.setStop i .joining)
  | .joining =>
    if s.commandApplyMu = none then
      some ({ s with commandApplyMu := some (.stop i) }.setStop i .joined)
    else none
  | .joined => some ({ s with commandApplyMu := none }.setStop i .returned)
  | .returned => none

/-- The next step of `pollLoop`: the `select` may take a tick although the context has ended. -/
def stepPoll (s : GatewayClient) (i : ℕ) (ok : Bool) : PollPC → Option GatewayClient
  | .polling => some (s.setPoll i (if s.cancelled then .waiting else .fetching s.clock))
  | .fetching began => some (s.setPoll i (.fetched ⟨began, s.clock⟩ ok))
  | .fetched snap ok' => some (s.setPoll i (if s.cancelled then .waiting else .checked snap ok'))
  | .checked snap ok' =>
    some ({ s with connected := ok' }.setPoll i
      (if s.hasStatus then .status snap ok' else if ok' then .reported snap else .waiting))
  | .status snap ok' => some (s.setPoll i (if ok' then .reported snap else .waiting))
  | .reported snap =>
    some (s.setPoll i (if s.hasApply && !s.cancelled then .ready snap else .waiting))
  | .ready snap => some ((s.pass .poll snap).setPoll i (.applying snap))
  | .applying _ => some (s.setPoll i .waiting)
  | .waiting =>
    if ok then some (s.setPoll i .polling)
    else if s.cancelled then some (s.setPoll i .leaving) else none
  | .leaving => some ({ s with connected := false }.setPoll i .closing)
  | .closing => some ({ s with closes := s.closes + 1 }.setPoll i .exited)
  | .exited => none

/-- The next step of `PostCommand`, `awaitOverride` and `applyOverride`. -/
def stepCommand (s : GatewayClient) (i : ℕ) (outcome : CommandOutcome) :
    CommandPC → Option GatewayClient
  | .posting => some (s.setCommand i (if outcome = .ok then .awaiting else .returned))
  | .awaiting =>
    some (s.setCommand i
      (if outcome = .fail ∨ s.cancelled then .returned else .fetching s.clock))
  | .fetching began =>
    some (s.setCommand i (if outcome = .fail then .returned else .fetched ⟨began, s.clock⟩))
  | .fetched snap =>
    some (s.setCommand i (if outcome = .fail ∨ s.cancelled then .returned else .checked snap))
  | .checked snap =>
    match outcome with
    | .fail => some (s.setCommand i .returned)
    | .unconfirmed => some (s.setCommand i .ticking)
    | .ok => some (s.setCommand i (.confirmed snap))
  | .ticking => some (s.setCommand i (if outcome = .fail then .returned else .awaiting))
  | .confirmed snap =>
    if s.commandApplyMu = none then
      some ({ s with commandApplyMu := some (.command i) }.setCommand i (.locked snap))
    else none
  | .locked snap =>
    some (s.setCommand i
      (if outcome = .fail ∨ s.cancelled ∨ !s.hasApply then .unlocking else .ready snap))
  | .ready snap => some ((s.pass (.command i) snap).setCommand i (.applying snap))
  | .applying _ => some (s.setCommand i .unlocking)
  | .unlocking => some ({ s with commandApplyMu := none }.setCommand i .returned)
  | .returned => none

/-- What an event does, before the clock moves. -/
def act (s : GatewayClient) : GatewayEvent → Option GatewayClient
  | .callStart i => if s.starts i = none then some (s.setStart i .called) else none
  | .callStop i => if s.stops i = none then some (s.setStop i .called) else none
  | .callCommand i => if s.commands i = none then some (s.setCommand i .posting) else none
  | .start i => (s.starts i).bind (s.stepStart i)
  | .stop i => (s.stops i).bind (s.stepStop i)
  | .poll i ok => (s.polls i).bind (s.stepPoll i ok)
  | .command i outcome => (s.commands i).bind (s.stepCommand i outcome)

/-- The next instant. -/
def tick (s : GatewayClient) : GatewayClient := { s with clock := s.clock + 1 }

/-- One step. -/
def step (s : GatewayClient) (e : GatewayEvent) : Option GatewayClient := (s.act e).map tick

/-- `NewClient`. -/
def Init (s : GatewayClient) : Prop :=
  s.lifecycleMu = none ∧ s.commandApplyMu = none ∧ s.started = false ∧ s.stopped = false ∧
    s.cancelled = false ∧ s.connected = false ∧ s.closes = 0 ∧ (∀ i, s.polls i = none) ∧
    (∀ i, s.starts i = none) ∧ (∀ i, s.stops i = none) ∧ (∀ i, s.commands i = none) ∧ s.log = []

/-- A callback runs. -/
def Running (s : GatewayClient) : Prop :=
  (∃ i pc, s.polls i = some pc ∧ pc.inCallback = true) ∨
    ∃ i snap, s.commands i = some (.applying snap)

/-! ## The invariant -/

/-- What a poll loop relies on: the client was started, it only leaves when the context has ended,
and it closes `done` when it is gone. -/
structure PollOk (s : GatewayClient) (pc : PollPC) : Prop where
  started : s.started = true
  ending : pc.ending = true → s.cancelled = true
  closes : s.closes = if pc = .exited then 1 else 0

/-- What a call of `Stop` relies on: the first one still has to close `done` where no poll loop
does, and one that was inside `commandApplyMu` leaves no command that is about to call `apply`. -/
structure StopOk (s : GatewayClient) (i : ℕ) (pc : StopPC) : Prop where
  holds : pc.holds = true → s.lifecycleMu = some (.stop i)
  joined : pc = .joined → s.commandApplyMu = some (.stop i)
  stopped : pc.first = true → s.stopped = true
  cancelled : pc = .cancelled → s.cancelled = true
  fresh : pc.first = true → s.started = false → s.closes = 0
  received : pc.received = true → s.closes ≠ 0
  barred : pc.barred = true → ∀ j c, s.commands j = some c → c.live = false

/-- What every reachable state keeps. -/
structure Inv (s : GatewayClient) : Prop where
  starter : ∀ i pc, s.starts i = some pc → pc.holds = true → s.lifecycleMu = some (.start i)
  command : ∀ i pc, s.commands i = some pc → pc.holds = true →
    s.commandApplyMu = some (.command i)
  poll : ∀ i pc, s.polls i = some pc → s.PollOk pc
  single : ∀ i j p q, s.polls i = some p → s.polls j = some q → i = j
  stop : ∀ i pc, s.stops i = some pc → s.StopOk i pc
  once : s.closes ≤ 1
  closed : s.closes ≠ 0 → s.stopped = true ∧ s.cancelled = true
  cancelled : s.cancelled = true → s.stopped = true

theorem inv_of_init {s : GatewayClient} (h : s.Init) : s.Inv := by
  obtain ⟨-, -, -, -, hcancelled, -, hcloses, hpolls, hstarts, hstops, hcommands, -⟩ := h
  constructor
  · intro i pc hi
    rw [hstarts i] at hi
    cases hi
  · intro i pc hi
    rw [hcommands i] at hi
    cases hi
  · intro i pc hi
    rw [hpolls i] at hi
    cases hi
  · intro i j p q hi
    rw [hpolls i] at hi
    cases hi
  · intro i pc hi
    rw [hstops i] at hi
    cases hi
  · omega
  · exact fun h => absurd hcloses h
  · intro h
    rw [hcancelled] at h
    cases h

namespace Inv

variable {s : GatewayClient}

/-- The clock decides nothing. -/
theorem tick (h : s.Inv) : s.tick.Inv :=
  ⟨h.starter, h.command, fun i pc hi => ⟨(h.poll i pc hi).started, (h.poll i pc hi).ending,
    (h.poll i pc hi).closes⟩, h.single, fun i pc hi => ⟨(h.stop i pc hi).holds,
    (h.stop i pc hi).joined, (h.stop i pc hi).stopped, (h.stop i pc hi).cancelled,
    (h.stop i pc hi).fresh, (h.stop i pc hi).received, (h.stop i pc hi).barred⟩, h.once, h.closed,
    h.cancelled⟩

/-- Before the client is started there is no poll loop. -/
theorem polls_none (h : s.Inv) (hs : s.started = false) (i : ℕ) : s.polls i = none := by
  cases hi : s.polls i with
  | none => rfl
  | some pc =>
    have := (h.poll i pc hi).started
    rw [hs] at this
    cases this

/-- When `done` was closed, the poll loop is gone. -/
theorem exited (h : s.Inv) (hclosed : s.closes ≠ 0) {i : ℕ} {pc : PollPC}
    (hi : s.polls i = some pc) : pc = .exited := by
  by_contra hne
  have := (h.poll i pc hi).closes
  rw [if_neg hne] at this
  exact hclosed this

/-- Nobody is inside a free `commandApplyMu`. -/
theorem not_live_of_free (h : s.Inv) (hfree : s.commandApplyMu = none) {j : ℕ} {c : CommandPC}
    (hj : s.commands j = some c) : c.live = false := by
  cases hlive : c.live with
  | false => rfl
  | true =>
    rw [h.command j c hj (CommandPC.holds_of_live hlive)] at hfree
    cases hfree

/-! ### The poll loop -/

/-- The poll loop goes on. -/
theorem movePoll (h : s.Inv) {i : ℕ} {pc pc' : PollPC} (connected : Bool)
    (log : List AppliedSnapshot) (hi : s.polls i = some pc) (hpc : pc ≠ .exited)
    (hpc' : pc' ≠ .exited) (hend : pc'.ending = true → s.cancelled = true) :
    ({ s with connected := connected, log := log }.setPoll i pc').Inv := by
  obtain ⟨hstarted, -, hcloses⟩ := h.poll i pc hi
  rw [if_neg hpc] at hcloses
  refine ⟨h.starter, h.command, ?_, ?_, ?_, h.once, h.closed, h.cancelled⟩
  · refine Threads.all_update ⟨hstarted, hend, ?_⟩ fun k p hk hp => ?_
    · rw [if_neg hpc']
      exact hcloses
    · exact absurd (h.single k i p pc hp hi) hk
  · intro k l p q hk hl
    have hall : ∀ k p, Function.update s.polls i (some pc') k = some p → k = i :=
      Threads.all_update rfl fun k p hk hp => absurd (h.single k i p pc hp hi) hk
    rw [hall k p hk, hall l q hl]
  · intro k p hk
    obtain ⟨h1, h2, h3, h4, h5, h6, h7⟩ := h.stop k p hk
    exact ⟨h1, h2, h3, h4, h5, h6, h7⟩

/-- The poll loop closes `done`. -/
theorem closePoll (h : s.Inv) {i : ℕ} (hi : s.polls i = some .closing) :
    ({ s with closes := s.closes + 1 }.setPoll i .exited).Inv := by
  obtain ⟨hstarted, hend, hcloses⟩ := h.poll i .closing hi
  rw [if_neg (by decide)] at hcloses
  have hcancelled : s.cancelled = true := hend rfl
  refine ⟨h.starter, h.command, ?_, ?_, ?_, ?_, fun _ => ⟨h.cancelled hcancelled, hcancelled⟩,
    h.cancelled⟩
  · refine Threads.all_update ⟨hstarted, fun _ => hcancelled, ?_⟩ fun k p hk hp => ?_
    · rw [if_pos rfl]
      show s.closes + 1 = 1
      rw [hcloses]
    · exact absurd (h.single k i p _ hp hi) hk
  · intro k l p q hk hl
    have hall : ∀ k p, Function.update s.polls i (some .exited) k = some p → k = i :=
      Threads.all_update rfl fun k p hk hp => absurd (h.single k i p _ hp hi) hk
    rw [hall k p hk, hall l q hl]
  · intro k p hk
    obtain ⟨h1, h2, h3, h4, h5, h6, h7⟩ := h.stop k p hk
    refine ⟨h1, h2, h3, h4, fun _ hnot => ?_, fun _ => Nat.succ_ne_zero _, h7⟩
    rw [show s.started = false from hnot] at hstarted
    cases hstarted
  · show s.closes + 1 ≤ 1
    omega

/-! ### `Start` -/

/-- A call of `Start` goes on. -/
theorem moveStart (h : s.Inv) {i : ℕ} {pc : StartPC} (mu : Option LifecycleCaller)
    (hmine : pc.holds = true → mu = some (.start i))
    (hstarts : ∀ k p, k ≠ i → s.starts k = some p → p.holds = true → mu = some (.start k))
    (hstops : ∀ k p, s.stops k = some p → p.holds = true → mu = some (.stop k)) :
    ({ s with lifecycleMu := mu }.setStart i pc).Inv := by
  refine ⟨Threads.all_update hmine hstarts, h.command, fun k p hk => ?_, h.single,
    fun k p hk => ?_, h.once, h.closed, h.cancelled⟩
  · obtain ⟨h1, h2, h3⟩ := h.poll k p hk
    exact ⟨h1, h2, h3⟩
  · obtain ⟨-, h2, h3, h4, h5, h6, h7⟩ := h.stop k p hk
    exact ⟨hstops k p hk, h2, h3, h4, h5, h6, h7⟩

/-- `Start` launches the poll loop of a client that was neither started nor stopped. -/
theorem launch (h : s.Inv) (i : ℕ) (hstarted : s.started = false) (hstopped : s.stopped = false) :
    ({ s with started := true }.setPoll i .polling).Inv := by
  have hnone : ∀ k p, k ≠ i → s.polls k ≠ some p := by
    intro k p _ hk
    rw [h.polls_none hstarted k] at hk
    cases hk
  refine ⟨h.starter, h.command, ?_, ?_, ?_, h.once, h.closed, h.cancelled⟩
  · refine Threads.all_update ⟨rfl, fun hend => (by cases hend), ?_⟩ fun k p hk hp =>
      absurd hp (hnone k p hk)
    show s.closes = 0
    by_contra hne
    rw [(h.closed hne).1] at hstopped
    cases hstopped
  · intro k l p q hk hl
    have hall : ∀ k p, Function.update s.polls i (some PollPC.polling) k = some p → k = i :=
      Threads.all_update rfl fun k p hk hp => absurd hp (hnone k p hk)
    rw [hall k p hk, hall l q hl]
  · intro k p hk
    obtain ⟨h1, h2, h3, h4, -, h6, h7⟩ := h.stop k p hk
    exact ⟨h1, h2, h3, h4, fun _ hnot => (by cases hnot), h6, h7⟩

/-! ### `Stop` -/

/-- A call of `Stop` goes on outside its critical steps. -/
theorem moveStop (h : s.Inv) {i : ℕ} {pc : StopPC} (mu : Option LifecycleCaller)
    (hfirst : pc.first = false) (hreceived : pc.received = false)
    (hmine : pc.holds = true → mu = some (.stop i))
    (hstarts : ∀ k p, s.starts k = some p → p.holds = true → mu = some (.start k))
    (hstops : ∀ k p, k ≠ i → s.stops k = some p → p.holds = true → mu = some (.stop k)) :
    ({ s with lifecycleMu := mu }.setStop i pc).Inv := by
  refine ⟨hstarts, h.command, fun k p hk => ?_, h.single, ?_, h.once, h.closed, h.cancelled⟩
  · obtain ⟨h1, h2, h3⟩ := h.poll k p hk
    exact ⟨h1, h2, h3⟩
  · refine Threads.all_update ⟨hmine, ?_, ?_, ?_, ?_, ?_, ?_⟩ fun k p hki hk => ?_
    · rintro rfl
      cases hreceived
    · intro hf
      rw [hfirst] at hf
      cases hf
    · rintro rfl
      cases hfirst
    · intro hf
      rw [hfirst] at hf
      cases hf
    · intro hr
      rw [hreceived] at hr
      cases hr
    · intro hb
      rw [(StopPC.received_of_barred hb).1] at hreceived
      cases hreceived
    · obtain ⟨-, h2, h3, h4, h5, h6, h7⟩ := h.stop k p hk
      exact ⟨hstops k p hki hk, h2, h3, h4, h5, h6, h7⟩

/-- The first call of `Stop` marks the client. -/
theorem markStopped (h : s.Inv) {i : ℕ} (hi : s.stops i = some .locked)
    (hstopped : s.stopped = false) : ({ s with stopped := true }.setStop i .stopping).Inv := by
  have hzero : s.closes = 0 := by
    by_contra hne
    rw [(h.closed hne).1] at hstopped
    cases hstopped
  refine ⟨h.starter, h.command, fun k p hk => ?_, h.single, ?_, h.once,
    fun hne => ⟨rfl, (h.closed hne).2⟩, fun _ => rfl⟩
  · obtain ⟨h1, h2, h3⟩ := h.poll k p hk
    exact ⟨h1, h2, h3⟩
  · refine Threads.all_update ⟨fun _ => (h.stop i _ hi).holds rfl, fun hj => (by cases hj),
      fun _ => rfl, fun hc => (by cases hc), fun _ _ => hzero, fun hr => (by cases hr),
      fun hb => (by cases hb)⟩ fun k p hki hk => ?_
    obtain ⟨h1, h2, -, h4, h5, h6, h7⟩ := h.stop k p hk
    exact ⟨h1, h2, fun _ => rfl, h4, h5, h6, h7⟩

/-- The first call of `Stop` cancels the context. -/
theorem cancel (h : s.Inv) {i : ℕ} (hi : s.stops i = some .stopping) :
    ({ s with cancelled := true }.setStop i .cancelled).Inv := by
  obtain ⟨hholds, -, hstopped, -, hfresh, -, -⟩ := h.stop i _ hi
  refine ⟨h.starter, h.command, fun k p hk => ?_, h.single, ?_, h.once,
    fun hne => ⟨(h.closed hne).1, rfl⟩, fun _ => hstopped rfl⟩
  · obtain ⟨h1, -, h3⟩ := h.poll k p hk
    exact ⟨h1, fun _ => rfl, h3⟩
  · refine Threads.all_update ⟨fun _ => hholds rfl, fun hj => (by cases hj),
      fun _ => hstopped rfl, fun _ => rfl, fun _ => hfresh rfl, fun hr => (by cases hr),
      fun hb => (by cases hb)⟩ fun k p hki hk => ?_
    obtain ⟨h1, h2, h3, -, h5, h6, h7⟩ := h.stop k p hk
    exact ⟨h1, h2, h3, fun _ => rfl, h5, h6, h7⟩

/-- The first call of `Stop` closes `done` in place of a poll loop that was never launched. -/
theorem closeStop (h : s.Inv) {i : ℕ} (hi : s.stops i = some .cancelled)
    (hstarted : s.started = false) :
    ({ s with closes := s.closes + 1 }.setStop i .unlocking).Inv := by
  obtain ⟨hholds, -, hstopped, hcancelled, hfresh, -, -⟩ := h.stop i _ hi
  have hzero : s.closes = 0 := hfresh rfl hstarted
  refine ⟨h.starter, h.command, fun k p hk => ?_, h.single, ?_, ?_,
    fun _ => ⟨hstopped rfl, hcancelled rfl⟩, h.cancelled⟩
  · have hnone := h.polls_none hstarted k
    rw [show s.polls k = some p from hk] at hnone
    cases hnone
  · refine Threads.all_update ⟨fun _ => hholds rfl, fun hj => (by cases hj),
      fun hf => (by cases hf), fun hc => (by cases hc), fun hf => (by cases hf),
      fun hr => (by cases hr), fun hb => (by cases hb)⟩ fun k p hki hk => ?_
    obtain ⟨h1, h2, h3, h4, -, h6, h7⟩ := h.stop k p hk
    refine ⟨h1, h2, h3, h4, fun hf => ?_, fun _ => Nat.succ_ne_zero _, h7⟩
    -- Both calls would be inside `lifecycleMu`.
    have hmine := hholds rfl
    rw [h1 (StopPC.holds_of_first hf)] at hmine
    exact absurd (LifecycleCaller.stop.inj (Option.some.inj hmine)) hki
  · show s.closes + 1 ≤ 1
    omega

/-- A call of `Stop` receives from `done`. -/
theorem receive (h : s.Inv) (i : ℕ) (hclosed : s.closes ≠ 0) : (s.setStop i .joining).Inv := by
  refine ⟨h.starter, h.command, fun k p hk => ?_, h.single, ?_, h.once, h.closed, h.cancelled⟩
  · obtain ⟨h1, h2, h3⟩ := h.poll k p hk
    exact ⟨h1, h2, h3⟩
  · refine Threads.all_update ⟨fun hh => (by cases hh), fun hj => (by cases hj),
      fun hf => (by cases hf), fun hc => (by cases hc), fun hf => (by cases hf), fun _ => hclosed,
      fun hb => (by cases hb)⟩ fun k p hki hk => ?_
    obtain ⟨h1, h2, h3, h4, h5, h6, h7⟩ := h.stop k p hk
    exact ⟨h1, h2, h3, h4, h5, h6, h7⟩

/-- A call of `Stop` takes or leaves `commandApplyMu`: no command is about to call `apply`. -/
theorem join (h : s.Inv) {i : ℕ} {pc : StopPC} (mu : Option ApplyCaller)
    (hpc : pc.barred = true) (hmine : pc = .joined → mu = some (.stop i)) (hclosed : s.closes ≠ 0)
    (hlive : ∀ j c, s.commands j = some c → c.live = false)
    (hcommands : ∀ j c, s.commands j = some c → c.holds = true → mu = some (.command j))
    (hstops : ∀ k, k ≠ i → s.stops k = some .joined → mu = some (.stop k)) :
    ({ s with commandApplyMu := mu }.setStop i pc).Inv := by
  obtain ⟨-, hholds, hfirst⟩ := StopPC.received_of_barred hpc
  refine ⟨h.starter, hcommands, fun k p hk => ?_, h.single, ?_, h.once, h.closed, h.cancelled⟩
  · obtain ⟨h1, h2, h3⟩ := h.poll k p hk
    exact ⟨h1, h2, h3⟩
  · refine Threads.all_update ⟨fun hh => ?_, hmine, fun hf => ?_, ?_, fun hf => ?_,
      fun _ => hclosed, fun _ => hlive⟩ fun k p hki hk => ?_
    · rw [hholds] at hh
      cases hh
    · rw [hfirst] at hf
      cases hf
    · rintro rfl
      cases hpc
    · rw [hfirst] at hf
      cases hf
    · obtain ⟨h1, -, h3, h4, h5, h6, h7⟩ := h.stop k p hk
      exact ⟨h1, fun hj => hstops k hki (hj ▸ hk), h3, h4, h5, h6, h7⟩

/-! ### `PostCommand` -/

/-- A command goes on. -/
theorem moveCommand (h : s.Inv) {i : ℕ} {pc : CommandPC} (mu : Option ApplyCaller)
    (log : List AppliedSnapshot) (hmine : pc.holds = true → mu = some (.command i))
    (hcommands : ∀ k c, k ≠ i → s.commands k = some c → c.holds = true → mu = some (.command k))
    (hstops : ∀ k, s.stops k = some .joined → mu = some (.stop k))
    (hlive : pc.live = true → ∀ k p, s.stops k = some p → p.barred = false) :
    ({ s with commandApplyMu := mu, log := log }.setCommand i pc).Inv := by
  refine ⟨h.starter, Threads.all_update hmine hcommands, fun k p hk => ?_, h.single,
    fun k p hk => ?_, h.once, h.closed, h.cancelled⟩
  · obtain ⟨h1, h2, h3⟩ := h.poll k p hk
    exact ⟨h1, h2, h3⟩
  · obtain ⟨h1, -, h3, h4, h5, h6, h7⟩ := h.stop k p hk
    refine ⟨h1, fun hj => hstops k (hj ▸ hk), h3, h4, h5, h6, fun hb => ?_⟩
    refine Threads.all_update ?_ fun j c hj hc => h7 hb j c hc
    cases hl : pc.live with
    | false => rfl
    | true =>
      have := hlive hl k p hk
      rw [hb] at this
      cases this

end Inv

/-! ## Every step keeps it -/

/-- **Step of a poll loop.** -/
theorem inv_stepPoll {s s' : GatewayClient} {i : ℕ} {ok : Bool} {pc : PollPC} (h : s.Inv)
    (hi : s.polls i = some pc) (hs : s.stepPoll i ok pc = some s') : s'.Inv := by
  cases pc with
  | polling =>
    obtain rfl := Option.some.inj hs
    exact h.movePoll s.connected s.log hi (by decide) (by split <;> simp)
      (by split <;> exact fun he => (by cases he))
  | fetching began =>
    obtain rfl := Option.some.inj hs
    exact h.movePoll s.connected s.log hi (by simp) (by simp) fun he => (by cases he)
  | fetched snap ok' =>
    obtain rfl := Option.some.inj hs
    exact h.movePoll s.connected s.log hi (by simp) (by split <;> simp)
      (by split <;> exact fun he => (by cases he))
  | checked snap ok' =>
    obtain rfl := Option.some.inj hs
    exact h.movePoll ok' s.log hi (by simp) (by split_ifs <;> simp)
      (by split_ifs <;> exact fun he => (by cases he))
  | status snap ok' =>
    obtain rfl := Option.some.inj hs
    exact h.movePoll s.connected s.log hi (by simp) (by split <;> simp)
      (by split <;> exact fun he => (by cases he))
  | reported snap =>
    obtain rfl := Option.some.inj hs
    exact h.movePoll s.connected s.log hi (by simp) (by split <;> simp)
      (by split <;> exact fun he => (by cases he))
  | ready snap =>
    obtain rfl := Option.some.inj hs
    exact h.movePoll s.connected _ hi (by simp) (by simp) fun he => (by cases he)
  | applying snap =>
    obtain rfl := Option.some.inj hs
    exact h.movePoll s.connected s.log hi (by simp) (by simp) fun he => (by cases he)
  | waiting =>
    simp only [stepPoll] at hs
    split_ifs at hs with hok hcancelled
    · obtain rfl := Option.some.inj hs
      exact h.movePoll s.connected s.log hi (by simp) (by simp) fun he => (by cases he)
    · obtain rfl := Option.some.inj hs
      exact h.movePoll s.connected s.log hi (by simp) (by simp) fun _ => hcancelled
  | leaving =>
    obtain rfl := Option.some.inj hs
    exact h.movePoll false s.log hi (by simp) (by simp) fun _ => (h.poll i _ hi).ending rfl
  | closing =>
    obtain rfl := Option.some.inj hs
    exact h.closePoll hi
  | exited => cases hs

/-- A free `lifecycleMu` is held by no call. -/
theorem Inv.not_holds_of_free {s : GatewayClient} (h : s.Inv) (hfree : s.lifecycleMu = none) :
    (∀ k p, s.starts k = some p → p.holds = false) ∧
      ∀ k p, s.stops k = some p → p.holds = false := by
  constructor
  · intro k p hk
    by_contra hp
    rw [h.starter k p hk (by simpa using hp)] at hfree
    cases hfree
  · intro k p hk
    by_contra hp
    rw [(h.stop k p hk).holds (by simpa using hp)] at hfree
    cases hfree

/-- **Step of a call of `Start`.** -/
theorem inv_stepStart {s s' : GatewayClient} {i : ℕ} {pc : StartPC} (h : s.Inv)
    (hi : s.starts i = some pc) (hs : s.stepStart i pc = some s') : s'.Inv := by
  cases pc with
  | called =>
    simp only [stepStart] at hs
    split_ifs at hs with hfree
    obtain rfl := Option.some.inj hs
    obtain ⟨hstarts, hstops⟩ := h.not_holds_of_free hfree
    refine h.moveStart _ (fun _ => rfl) (fun k p _ hk hp => ?_) fun k p hk hp => ?_
    · rw [hstarts k p hk] at hp
      cases hp
    · rw [hstops k p hk] at hp
      cases hp
  | locked =>
    have hmine := h.starter i _ hi rfl
    simp only [stepStart] at hs
    split_ifs at hs with hdone
    · obtain rfl := Option.some.inj hs
      exact h.moveStart s.lifecycleMu (fun _ => hmine) (fun k p _ => h.starter k p)
        fun k p hk => (h.stop k p hk).holds
    · obtain rfl := Option.some.inj hs
      simp only [Bool.or_eq_true, not_or, Bool.not_eq_true] at hdone
      have hlaunch := h.launch i hdone.1 hdone.2
      exact hlaunch.moveStart s.lifecycleMu (fun _ => hmine) (fun k p _ => h.starter k p)
        fun k p hk => (h.stop k p hk).holds
  | unlocking =>
    obtain rfl := Option.some.inj hs
    have hmine := h.starter i _ hi rfl
    refine h.moveStart none (fun hh => (by cases hh)) (fun k p hki hk hp => ?_) fun k p hk hp => ?_
    · have := h.starter k p hk hp
      rw [hmine] at this
      exact absurd (LifecycleCaller.start.inj (Option.some.inj this)).symm hki
    · have := (h.stop k p hk).holds hp
      rw [hmine] at this
      cases this
  | returned => cases hs

/-- **Step of a call of `Stop`.** -/
theorem inv_stepStop {s s' : GatewayClient} {i : ℕ} {pc : StopPC} (h : s.Inv)
    (hi : s.stops i = some pc) (hs : s.stepStop i pc = some s') : s'.Inv := by
  have hok := h.stop i pc hi
  cases pc with
  | called =>
    simp only [stepStop] at hs
    split_ifs at hs with hfree
    obtain rfl := Option.some.inj hs
    obtain ⟨hstarts, hstops⟩ := h.not_holds_of_free hfree
    refine h.moveStop _ rfl rfl (fun _ => rfl) (fun k p hk hp => ?_) fun k p _ hk hp => ?_
    · rw [hstarts k p hk] at hp
      cases hp
    · rw [hstops k p hk] at hp
      cases hp
  | locked =>
    simp only [stepStop] at hs
    split_ifs at hs with hstopped
    · obtain rfl := Option.some.inj hs
      exact h.moveStop s.lifecycleMu rfl rfl (fun _ => hok.holds rfl) h.starter
        fun k p _ hk => (h.stop k p hk).holds
    · obtain rfl := Option.some.inj hs
      exact h.markStopped hi (by simpa using hstopped)
  | stopping =>
    obtain rfl := Option.some.inj hs
    exact h.cancel hi
  | cancelled =>
    simp only [stepStop] at hs
    split_ifs at hs with hstarted
    · obtain rfl := Option.some.inj hs
      exact h.moveStop s.lifecycleMu rfl rfl (fun _ => hok.holds rfl) h.starter
        fun k p _ hk => (h.stop k p hk).holds
    · obtain rfl := Option.some.inj hs
      exact h.closeStop hi (by simpa using hstarted)
  | unlocking =>
    obtain rfl := Option.some.inj hs
    have hmine := hok.holds rfl
    refine h.moveStop none rfl rfl (fun hh => (by cases hh)) (fun k p hk hp => ?_)
      fun k p hki hk hp => ?_
    · have := h.starter k p hk hp
      rw [hmine] at this
      cases this
    · have := (h.stop k p hk).holds hp
      rw [hmine] at this
      exact absurd (LifecycleCaller.stop.inj (Option.some.inj this)).symm hki
  | waiting =>
    simp only [stepStop] at hs
    split_ifs at hs with hclosed
    obtain rfl := Option.some.inj hs
    exact h.receive i hclosed
  | joining =>
    simp only [stepStop] at hs
    split_ifs at hs with hfree
    obtain rfl := Option.some.inj hs
    refine h.join _ rfl (fun _ => rfl) (hok.received rfl)
      (fun j c hj => h.not_live_of_free hfree hj) (fun j c hj hc => ?_) fun k _ hk => ?_
    · rw [h.command j c hj hc] at hfree
      cases hfree
    · rw [(h.stop k _ hk).joined rfl] at hfree
      cases hfree
  | joined =>
    obtain rfl := Option.some.inj hs
    have hmine := hok.joined rfl
    refine h.join none rfl (fun hj => (by cases hj)) (hok.received rfl) (hok.barred rfl)
      (fun j c hj hc => ?_) fun k hki hk => ?_
    · have := h.command j c hj hc
      rw [hmine] at this
      cases this
    · have := (h.stop k _ hk).joined rfl
      rw [hmine] at this
      exact absurd (ApplyCaller.stop.inj (Option.some.inj this)).symm hki
  | returned => cases hs

/-- A command that is not inside `commandApplyMu` goes on. -/
theorem Inv.moveCommand_outside {s : GatewayClient} (h : s.Inv) {i : ℕ} {pc : CommandPC}
    (hpc : pc.holds = false) : (s.setCommand i pc).Inv := by
  refine h.moveCommand s.commandApplyMu s.log (fun hh => ?_) (fun k c _ => h.command k c)
    (fun k hk => (h.stop k _ hk).joined rfl) fun hl => ?_
  · rw [hpc] at hh
    cases hh
  · rw [CommandPC.holds_of_live hl] at hpc
    cases hpc

/-- A command inside `commandApplyMu` goes on. -/
theorem Inv.moveCommand_inside {s : GatewayClient} (h : s.Inv) {i : ℕ} {pc pc' : CommandPC}
    (log : List AppliedSnapshot) (hi : s.commands i = some pc) (hpc : pc.holds = true)
    (hlive : pc'.live = true → pc.live = true ∨ s.cancelled = false) :
    ({ s with log := log }.setCommand i pc').Inv := by
  refine h.moveCommand s.commandApplyMu log (fun _ => h.command i pc hi hpc)
    (fun k c _ => h.command k c) (fun k hk => (h.stop k _ hk).joined rfl) fun hl k p hk => ?_
  by_contra hb
  have hb : p.barred = true := by simpa using hb
  have hstop := h.stop k p hk
  rcases hlive hl with hl | hcancelled
  · rw [hstop.barred hb i pc hi] at hl
    cases hl
  · have := (h.closed (hstop.received (StopPC.received_of_barred hb).1)).2
    rw [hcancelled] at this
    cases this

/-- **Step of a command.** -/
theorem inv_stepCommand {s s' : GatewayClient} {i : ℕ} {outcome : CommandOutcome} {pc : CommandPC}
    (h : s.Inv) (hi : s.commands i = some pc) (hs : s.stepCommand i outcome pc = some s') :
    s'.Inv := by
  cases pc with
  | posting =>
    obtain rfl := Option.some.inj hs
    exact h.moveCommand_outside (by split <;> rfl)
  | awaiting =>
    obtain rfl := Option.some.inj hs
    exact h.moveCommand_outside (by split <;> rfl)
  | fetching began =>
    obtain rfl := Option.some.inj hs
    exact h.moveCommand_outside (by split <;> rfl)
  | fetched snap =>
    obtain rfl := Option.some.inj hs
    exact h.moveCommand_outside (by split <;> rfl)
  | checked snap =>
    cases outcome with
    | fail =>
      obtain rfl := Option.some.inj hs
      exact h.moveCommand_outside rfl
    | unconfirmed =>
      obtain rfl := Option.some.inj hs
      exact h.moveCommand_outside rfl
    | ok =>
      obtain rfl := Option.some.inj hs
      exact h.moveCommand_outside rfl
  | ticking =>
    obtain rfl := Option.some.inj hs
    exact h.moveCommand_outside (by split <;> rfl)
  | confirmed snap =>
    simp only [stepCommand] at hs
    split_ifs at hs with hfree
    obtain rfl := Option.some.inj hs
    refine h.moveCommand _ s.log (fun _ => rfl) (fun k c _ hk hc => ?_) (fun k hk => ?_)
      fun hl => (by cases hl)
    · rw [h.command k c hk hc] at hfree
      cases hfree
    · rw [(h.stop k _ hk).joined rfl] at hfree
      cases hfree
  | locked snap =>
    obtain rfl := Option.some.inj hs
    refine h.moveCommand_inside s.log hi rfl fun hl => Or.inr ?_
    split_ifs at hl with hfail
    · cases hl
    · simp only [not_or, Bool.not_eq_true] at hfail
      exact hfail.2.1
  | ready snap =>
    obtain rfl := Option.some.inj hs
    exact h.moveCommand_inside _ hi rfl fun _ => Or.inl rfl
  | applying snap =>
    obtain rfl := Option.some.inj hs
    exact h.moveCommand_inside s.log hi rfl fun hl => (by cases hl)
  | unlocking =>
    obtain rfl := Option.some.inj hs
    have hmine := h.command i _ hi rfl
    refine h.moveCommand none s.log (fun hh => (by cases hh)) (fun k c hki hk hc => ?_)
      (fun k hk => ?_) fun hl => (by cases hl)
    · have := h.command k c hk hc
      rw [hmine] at this
      exact absurd (ApplyCaller.command.inj (Option.some.inj this)).symm hki
    · have := (h.stop k _ hk).joined rfl
      rw [hmine] at this
      cases this
  | returned => cases hs

/-- **Step.** What every step keeps. -/
theorem inv_step {s s' : GatewayClient} {e : GatewayEvent} (h : s.Inv) (hs : s.step e = some s') :
    s'.Inv := by
  obtain ⟨s₁, hact, rfl⟩ := Option.map_eq_some_iff.mp hs
  refine Inv.tick ?_
  cases e with
  | callStart i =>
    simp only [act] at hact
    split_ifs at hact
    obtain rfl := Option.some.inj hact
    exact h.moveStart s.lifecycleMu (fun hh => (by cases hh)) (fun k p _ => h.starter k p)
      fun k p hk => (h.stop k p hk).holds
  | callStop i =>
    simp only [act] at hact
    split_ifs at hact
    obtain rfl := Option.some.inj hact
    exact h.moveStop s.lifecycleMu rfl rfl (fun hh => (by cases hh)) h.starter
      fun k p _ hk => (h.stop k p hk).holds
  | callCommand i =>
    simp only [act] at hact
    split_ifs at hact
    obtain rfl := Option.some.inj hact
    exact h.moveCommand_outside rfl
  | start i =>
    obtain ⟨pc, hi, hnext⟩ := Option.bind_eq_some_iff.mp hact
    exact inv_stepStart h hi hnext
  | stop i =>
    obtain ⟨pc, hi, hnext⟩ := Option.bind_eq_some_iff.mp hact
    exact inv_stepStop h hi hnext
  | poll i ok =>
    obtain ⟨pc, hi, hnext⟩ := Option.bind_eq_some_iff.mp hact
    exact inv_stepPoll h hi hnext
  | command i outcome =>
    obtain ⟨pc, hi, hnext⟩ := Option.bind_eq_some_iff.mp hact
    exact inv_stepCommand h hi hnext

/-! ## The result -/

/-- A step of `Start` leaves the calls of `Stop` alone. -/
theorem stepStart_stops {s s' : GatewayClient} {i : ℕ} {pc : StartPC}
    (hs : s.stepStart i pc = some s') : s'.stops = s.stops := by
  cases pc with
  | called | locked =>
    simp only [stepStart] at hs
    split_ifs at hs <;> exact Option.some.inj hs ▸ rfl
  | unlocking => exact Option.some.inj hs ▸ rfl
  | returned => cases hs

/-- A step of a poll loop leaves the calls of `Stop` alone. -/
theorem stepPoll_stops {s s' : GatewayClient} {i : ℕ} {ok : Bool} {pc : PollPC}
    (hs : s.stepPoll i ok pc = some s') : s'.stops = s.stops := by
  cases pc with
  | waiting =>
    simp only [stepPoll] at hs
    split_ifs at hs <;> exact Option.some.inj hs ▸ rfl
  | exited => cases hs
  | _ => exact Option.some.inj hs ▸ rfl

/-- A step of a command leaves the calls of `Stop` alone. -/
theorem stepCommand_stops {s s' : GatewayClient} {i : ℕ} {outcome : CommandOutcome}
    {pc : CommandPC} (hs : s.stepCommand i outcome pc = some s') : s'.stops = s.stops := by
  cases pc with
  | checked snap => cases outcome <;> exact Option.some.inj hs ▸ rfl
  | confirmed snap =>
    simp only [stepCommand] at hs
    split_ifs at hs
    exact Option.some.inj hs ▸ rfl
  | returned => cases hs
  | _ => exact Option.some.inj hs ▸ rfl

/-- A step of `Stop` moves one call, which had not returned. -/
theorem stepStop_stops {s s' : GatewayClient} {i : ℕ} {pc : StopPC}
    (hs : s.stepStop i pc = some s') :
    pc ≠ .returned ∧ ∃ pc', s'.stops = Function.update s.stops i (some pc') := by
  cases pc with
  | called | locked | cancelled | waiting | joining =>
    simp only [stepStop] at hs
    split_ifs at hs <;> exact Option.some.inj hs ▸ ⟨by simp, _, rfl⟩
  | stopping | unlocking | joined => exact Option.some.inj hs ▸ ⟨by simp, _, rfl⟩
  | returned => cases hs

/-- A call of `Stop` that has returned stays there. -/
theorem returned_step {s s' : GatewayClient} {e : GatewayEvent} {i : ℕ}
    (hi : s.stops i = some .returned) (hs : s.step e = some s') : s'.stops i = some .returned := by
  obtain ⟨s₁, hact, rfl⟩ := Option.map_eq_some_iff.mp hs
  show s₁.stops i = some .returned
  cases e with
  | callStop k =>
    simp only [act] at hact
    split_ifs at hact with hk
    obtain rfl := Option.some.inj hact
    refine Threads.update_of_ne ?_ hi
    rintro rfl
    rw [hi] at hk
    cases hk
  | stop k =>
    obtain ⟨pc, hk, hnext⟩ := Option.bind_eq_some_iff.mp hact
    obtain ⟨hpc, pc', hstops⟩ := stepStop_stops hnext
    rw [hstops]
    refine Threads.update_of_ne ?_ hi
    rintro rfl
    exact hpc (Option.some.inj (hk.symm.trans hi))
  | callStart k | callCommand k =>
    simp only [act] at hact
    split_ifs at hact
    exact Option.some.inj hact ▸ hi
  | start k =>
    obtain ⟨pc, -, hnext⟩ := Option.bind_eq_some_iff.mp hact
    rwa [stepStart_stops hnext]
  | poll k ok =>
    obtain ⟨pc, -, hnext⟩ := Option.bind_eq_some_iff.mp hact
    rwa [stepPoll_stops hnext]
  | command k outcome =>
    obtain ⟨pc, -, hnext⟩ := Option.bind_eq_some_iff.mp hact
    rwa [stepCommand_stops hnext]

/-- No callback runs where a call of `Stop` has returned. -/
theorem Inv.not_running {s : GatewayClient} (h : s.Inv) {i : ℕ} (hi : s.stops i = some .returned) :
    ¬ s.Running := by
  have hstop := h.stop i _ hi
  rintro (⟨k, pc, hk, hrun⟩ | ⟨k, snap, hk⟩)
  · rw [h.exited (hstop.received rfl) hk] at hrun
    cases hrun
  · have := hstop.barred rfl k _ hk
    cases this

/-- **`Stop` is a barrier.** In every run `done` is closed at most once, and in every state behind
the return of a call of `Stop` no `apply` or `onStatus` runs, whatever was called before or since.

**Proof sketch.** `done` is closed by the only poll loop when it is gone, or by the first call of
`Stop` where no loop was launched, and then none is. A command checks the context inside
`commandApplyMu`, which `Stop` takes behind `done`, with the context cancelled. -/
theorem stop_barrier {s s' : GatewayClient} {i : ℕ}
    (h : Transition.Reachable step (fun _ _ => True) Init s)
    (h' : Transition.Reachable step (fun _ _ => True) (· = s) s') :
    s'.closes ≤ 1 ∧ (s.stops i = some .returned → ¬ s'.Running) := by
  have hinv : s'.Inv := (h.trans h').invariant (fun _ hs => inv_of_init hs)
    fun _ _ _ hi _ hs => inv_step hi hs
  refine ⟨hinv.once, fun hi => ?_⟩
  have hreturned : s'.stops i = some .returned := h'.invariant (fun _ hs => hs ▸ hi)
    fun _ _ _ hi _ hs => returned_step hi hs
  exact hinv.not_running hreturned

/-- A client with both callbacks that nobody called. -/
def idle : GatewayClient where
  clock := 0
  hasApply := true
  hasStatus := true
  lifecycleMu := none
  commandApplyMu := none
  started := false
  stopped := false
  cancelled := false
  connected := false
  closes := 0
  polls := fun _ => none
  starts := fun _ => none
  stops := fun _ => none
  commands := fun _ => none
  log := []

theorem init_idle : idle.Init :=
  ⟨rfl, rfl, rfl, rfl, rfl, rfl, rfl, fun _ => rfl, fun _ => rfl, fun _ => rfl, fun _ => rfl, rfl⟩

/-- A call of `Start` launches the poll loop. -/
def startUp (i : ℕ) : List GatewayEvent := [.callStart i, .start i, .start i, .start i]

/-- The poll loop is started and `Stop` is called while a command is in `apply` and the loop in
`onStatus`; then the callbacks end, and both calls return. -/
def stopInCallbacks : List GatewayEvent :=
  [(1, .callStart 0), (3, .start 0), (1, .callCommand 0), (8, .command 0 .ok), (4, .poll 0 true),
    (1, .callStop 0), (5, .stop 0), (2, .poll 0 true), (3, .poll 0 false), (1, .stop 0),
    (2, .command 0 .ok), (2, .stop 0)].flatMap fun (n, e) => List.replicate n e

/-- `Stop` waits for both callbacks, and another call of `Start` launches nothing. -/
theorem stop_barrier_restarted : ∃ s s',
    Transition.Reachable step (fun _ _ => True) Init s ∧ s.stops 0 = some .returned ∧
      s.log.length = 1 ∧ Transition.Reachable step (fun _ _ => True) (· = s) s' ∧
      s'.starts 1 = some .returned ∧ s'.closes ≤ 1 ∧ ¬ s'.Running := by
  obtain ⟨s, hs, hp⟩ := Transition.Reachable.exists_of_run step (fun _ _ => True) stopInCallbacks
    (fun s => decide (s.stops 0 = some .returned ∧ s.log.length = 1) &&
      (Transition.run step s (startUp 1)).any fun s' => s'.starts 1 == some .returned)
    init_idle (Transition.Allowed.of_forall (fun _ _ => trivial) _) (by decide)
  simp only [Bool.and_eq_true, decide_eq_true_eq] at hp
  obtain ⟨⟨hreturned, hlog⟩, hrun⟩ := hp
  obtain ⟨s', hs', hp'⟩ : ∃ s', Transition.Reachable step (fun _ _ => True) (· = s) s' ∧
      (s'.starts 1 == some .returned) = true :=
    Transition.Reachable.exists_of_run step (fun _ _ => True) (startUp 1) _ rfl
      (Transition.Allowed.of_forall (fun _ _ => trivial) _) hrun
  obtain ⟨honce, hnot⟩ := stop_barrier (i := 0) hs hs'
  exact ⟨s, s', hs, hreturned, hlog, hs', beq_iff_eq.mp hp', honce, hnot hreturned⟩

end GatewayClient

end Dashboard
