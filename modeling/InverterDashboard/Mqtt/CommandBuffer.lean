import InverterDashboard.Go.Json
import InverterDashboard.Go.Text
import InverterDashboard.Lib.Trace
import InverterDashboard.Lib.Transition

set_option relaxedAutoImplicit false
set_option autoImplicit false

/-!
# The command buffer

`internal/mqtt/command_buffer.go`. Calls of `Enqueue` push commands into a bounded channel and give
up the oldest one when it is full. One worker takes the commands out and starts a goroutine for
each, ten at a time; a goroutine publishes its command, with pauses between its attempts. `Stop`
cancels the context, closes the channel and waits for all of them. Every operation on the channel,
the semaphore and the context is one step, and the steps of all goroutines interleave.

The commands are numbered in the order of the calls. The log notes what becomes of them, the latest
entry first.

## Main definitions

* `Dashboard.shouldRetry`, `Dashboard.Obstacle.error` — the errors of an attempt.
* `Dashboard.CommandBuffer`, `Dashboard.CommandBuffer.step` — the system.

## Main results

* `Dashboard.CommandBuffer.stepped_of_step` — what a step can do.
-/

namespace Dashboard

open Go

/-! ## Commands and their errors -/

/-- `Command` of the buffer, with its number. -/
structure QueuedCommand where
  id : ℕ
  action : String
  payload : Any

/-- `maxConcurrentRetries`. -/
def maxConcurrentRetries : ℕ := 10

/-- `baseDelay`, in nanoseconds. -/
def baseDelay : ℕ := 100000000

/-- `maxDelay`, in nanoseconds. -/
def maxDelay : ℕ := 30000000000

/-- `maxRetries`. -/
def maxRetries : ℕ := 10

/-- `retryableErrors`. -/
def retryableErrors : List String :=
  ["connection refused", "connection reset", "timeout", "not connected", "tls", "broken pipe",
    "closed"]

/-- `shouldRetry`, of the text of an error. -/
def shouldRetry (err : String) : Bool := retryableErrors.any (containsText (toLower err))

/-- The topic of a command. -/
def QueuedCommand.topic (cmd : QueuedCommand) : String := "inverter/cmd/" ++ cmd.action

/-- Why `publishOnce` does not come to the broker. -/
inductive Obstacle where
  | notInitialized
  | notConnected
  | notEncoded (err : String)

/-- The error of `publishOnce` then. -/
def Obstacle.error : Obstacle → String
  | .notInitialized => "MQTT client not initialized"
  | .notConnected => "MQTT client not connected"
  | .notEncoded err => "failed to marshal payload: " ++ err

/-- The error of `publishOnce` for an error of its token. -/
def QueuedCommand.publishError (cmd : QueuedCommand) (err : String) : String :=
  "failed to publish to " ++ cmd.topic ++ ": " ++ err

/-! ## The system -/

/-- What becomes of the commands. -/
inductive BufferEntry where
  /-- The command is in the channel. -/
  | queued (id : ℕ)
  /-- Its goroutine is started. -/
  | started (id : ℕ)
  /-- It is handed to the broker. -/
  | handed (id : ℕ)
  /-- It is published. -/
  | published (id : ℕ)
  /-- Its goroutine has given it up. -/
  | failed (id : ℕ)
  /-- It was the oldest one in a full channel. -/
  | dropped (id : ℕ)
  /-- It found the channel full again. -/
  | rejected (id : ℕ)
  /-- The worker has taken it out and ended. -/
  | lost (id : ℕ)
  /-- Its `Enqueue` came to a closed channel. -/
  | panicked (id : ℕ)
  /-- `Stop` returns. -/
  | stopped
  deriving DecidableEq

/-- The command of an entry that is its last one. -/
def BufferEntry.final? : BufferEntry → Option ℕ
  | .published id | .failed id | .dropped id | .rejected id | .lost id | .panicked id => some id
  | .queued _ | .started _ | .handed _ | .stopped => none

/-- The command of an entry that puts it into the channel. -/
def BufferEntry.queued? : BufferEntry → Option ℕ
  | .queued id => some id
  | _ => none

/-- The command of an entry that starts its goroutine. -/
def BufferEntry.started? : BufferEntry → Option ℕ
  | .started id => some id
  | _ => none

/-- Where a call of `Enqueue` is. -/
inductive EnqueuePC where
  /-- Before its first `select`. -/
  | sending
  /-- The channel was full. -/
  | dropping
  /-- Before its last `select`. -/
  | resending
  deriving DecidableEq

/-- A call of `Enqueue`. -/
structure EnqueueCall where
  cmd : QueuedCommand
  pc : EnqueuePC := .sending

/-- Where the worker is. -/
inductive WorkerPC where
  | receiving
  /-- It has taken a command out and waits for the semaphore. -/
  | holding (cmd : QueuedCommand)
  /-- In `drain`, with so many rounds left. -/
  | draining (rounds : ℕ)
  | ended

/-- The command the worker has. -/
def WorkerPC.held : WorkerPC → Option QueuedCommand
  | .holding cmd => some cmd
  | _ => none

/-- The worker has ended. -/
def WorkerPC.isEnded : WorkerPC → Bool
  | .ended => true
  | _ => false

/-- Where a goroutine is. -/
inductive RetryPC where
  /-- It looks at the context. -/
  | testing
  /-- In `publishOnce`. -/
  | publishing
  /-- The command is handed over, and its token is not settled. -/
  | waiting
  /-- Between two attempts. -/
  | sleeping
  /-- `publishWithRetry` has returned. -/
  | leaving
  /-- The semaphore is released. -/
  | returning
  deriving DecidableEq

/-- A goroutine of `worker`. -/
structure Retry where
  cmd : QueuedCommand
  attempt : ℕ := 0
  delay : ℕ := baseDelay
  pc : RetryPC := .testing

/-- A new goroutine. -/
def Retry.start (cmd : QueuedCommand) : Retry := { cmd := cmd }

/-- The goroutine has its command. -/
def Retry.isLive (r : Retry) : Bool :=
  decide (r.pc ≠ .leaving ∧ r.pc ≠ .returning)

/-- Where `Stop` is. -/
inductive BufferStopPC where
  | running
  | cancelled
  | closed
  | returned
  deriving DecidableEq

/-- The buffer, its goroutines, and the log. -/
structure CommandBuffer where
  capacity : ℕ
  queue : List QueuedCommand := []
  calls : List EnqueueCall := []
  worker : WorkerPC := .receiving
  /-- The tokens in the semaphore. -/
  sem : ℕ := 0
  retries : List Retry := []
  stop : BufferStopPC := .running
  /-- The number of the next command. -/
  next : ℕ := 0
  log : List BufferEntry := []

/-- The steps of the system. -/
inductive BufferEvent where
  /-- A call of `Enqueue`. -/
  | enqueue (action : String) (payload : Any)
  /-- The first `select` of a call. -/
  | send (i : ℕ)
  /-- The second one. -/
  | drop (i : ℕ)
  /-- The last one. -/
  | resend (i : ℕ)
  /-- The worker receives. -/
  | receive
  /-- The worker gets a token and starts a goroutine. -/
  | acquire
  /-- The worker sees that the context is cancelled. -/
  | quit
  /-- A round of `drain`. -/
  | drain
  /-- A goroutine looks at the context. -/
  | test (i : ℕ)
  /-- It hands its command to the broker, if nothing is in the way. -/
  | publish (i : ℕ) (obstacle : Option Obstacle)
  /-- The token is settled. -/
  | settle (i : ℕ) (err : Option String)
  /-- Its pause is over. -/
  | wake (i : ℕ)
  /-- Its pause is cut short. -/
  | interrupt (i : ℕ)
  /-- It releases the semaphore. -/
  | release (i : ℕ)
  /-- `wg.Done`. -/
  | done (i : ℕ)
  /-- The next step of `Stop`. -/
  | stop

namespace CommandBuffer

/-- `NewCommandBuffer`. -/
def newCommandBuffer (capacity : ℕ) : CommandBuffer := { capacity := capacity }

/-- The context is cancelled. -/
def isCancelled (b : CommandBuffer) : Bool := decide (b.stop ≠ .running)

/-- The channel is closed. -/
def isClosed (b : CommandBuffer) : Bool := decide (b.stop = .closed ∨ b.stop = .returned)

/-- The worker or a goroutine is still counted in the wait group. -/
def isWaiting (b : CommandBuffer) : Bool :=
  !b.worker.isEnded || !b.retries.isEmpty

/-- An entry of the log. -/
def note (b : CommandBuffer) (e : BufferEntry) : CommandBuffer := { b with log := e :: b.log }

/-- Call `i` returns. -/
def hangUp (b : CommandBuffer) (i : ℕ) : CommandBuffer := { b with calls := b.calls.eraseIdx i }

/-- Goroutine `i` moves on. -/
def move (b : CommandBuffer) (i : ℕ) (r : Retry) : CommandBuffer :=
  { b with retries := b.retries.set i r }

/-- A call sends its command, if there is room. -/
def put (b : CommandBuffer) (i : ℕ) (c : EnqueueCall) (full : CommandBuffer) : CommandBuffer :=
  if b.isClosed then (b.hangUp i).note (.panicked c.cmd.id)
  else if b.queue.length < b.capacity then
    { b.hangUp i with queue := b.queue ++ [c.cmd] }.note (.queued c.cmd.id)
  else full

/-- What follows an error of `publishOnce` in goroutine `i`. -/
def fail (b : CommandBuffer) (i : ℕ) (r : Retry) (err : String) : CommandBuffer :=
  if shouldRetry err = false ∨ r.attempt = maxRetries then
    (b.move i { r with pc := .leaving }).note (.failed r.cmd.id)
  else b.move i { r with pc := .sleeping }

/-- One step. -/
def step (b : CommandBuffer) : BufferEvent → Option CommandBuffer
  | .enqueue action payload =>
    some { b with calls := b.calls ++ [{ cmd := ⟨b.next, action, payload⟩ }], next := b.next + 1 }
  | .send i => (b.calls[i]?).bind fun c =>
    if c.pc = .sending then
      some (b.put i c { b with calls := b.calls.set i { c with pc := .dropping } })
    else none
  | .drop i => (b.calls[i]?).bind fun c =>
    if c.pc = .dropping then
      let resending : CommandBuffer := { b with calls := b.calls.set i { c with pc := .resending } }
      match b.queue with
      | [] => some resending
      | old :: rest => some ({ resending with queue := rest }.note (.dropped old.id))
    else none
  | .resend i => (b.calls[i]?).bind fun c =>
    if c.pc = .resending then some (b.put i c ((b.hangUp i).note (.rejected c.cmd.id)))
    else none
  | .receive =>
    match b.worker, b.queue with
    | .receiving, cmd :: rest => some { b with worker := .holding cmd, queue := rest }
    | .receiving, [] =>
      if b.isClosed then some { b with worker := .draining maxConcurrentRetries } else none
    | _, _ => none
  | .acquire =>
    match b.worker with
    | .holding cmd =>
      if b.sem < maxConcurrentRetries then
        some ({ b with
          worker := .receiving
          sem := b.sem + 1
          retries := b.retries ++ [Retry.start cmd] }.note (.started cmd.id))
      else none
    | _ => none
  | .quit =>
    match b.worker with
    | .holding cmd =>
      if b.isCancelled then some ({ b with worker := .ended }.note (.lost cmd.id)) else none
    | _ => none
  | .drain =>
    match b.worker with
    | .draining 0 => some { b with worker := .ended }
    | .draining (n + 1) =>
      if b.sem < maxConcurrentRetries then
        some { b with worker := .draining n, sem := b.sem + 1 }
      else some { b with worker := .ended }
    | _ => none
  | .test i => (b.retries[i]?).bind fun r =>
    if r.pc = .testing then
      if b.isCancelled then
        some ((b.move i { r with pc := .leaving }).note (.failed r.cmd.id))
      else some (b.move i { r with pc := .publishing })
    else none
  | .publish i obstacle => (b.retries[i]?).bind fun r =>
    if r.pc = .publishing then
      match obstacle with
      | none => some ((b.move i { r with pc := .waiting }).note (.handed r.cmd.id))
      | some obstacle => some (b.fail i r obstacle.error)
    else none
  | .settle i err => (b.retries[i]?).bind fun r =>
    if r.pc = .waiting then
      match err with
      | none => some ((b.move i { r with pc := .leaving }).note (.published r.cmd.id))
      | some err => some (b.fail i r (r.cmd.publishError err))
    else none
  | .wake i => (b.retries[i]?).bind fun r =>
    if r.pc = .sleeping then
      some (b.move i { r with
        pc := .testing
        attempt := r.attempt + 1
        delay := min (r.delay * 2) maxDelay })
    else none
  | .interrupt i => (b.retries[i]?).bind fun r =>
    if r.pc = .sleeping ∧ b.isCancelled = true then
      some ((b.move i { r with pc := .leaving }).note (.failed r.cmd.id))
    else none
  | .release i => (b.retries[i]?).bind fun r =>
    if r.pc = .leaving then some { b.move i { r with pc := .returning } with sem := b.sem - 1 }
    else none
  | .done i => (b.retries[i]?).bind fun r =>
    if r.pc = .returning then some { b with retries := b.retries.eraseIdx i } else none
  | .stop =>
    match b.stop with
    | .running => some { b with stop := .cancelled }
    | .cancelled => some { b with stop := .closed }
    | .closed => if b.isWaiting then none else some ({ b with stop := .returned }.note .stopped)
    | .returned => none

/-- A new buffer, whose channel has room. -/
def Init (b : CommandBuffer) : Prop := 0 < b.capacity ∧ b = newCommandBuffer b.capacity

theorem init_newCommandBuffer {capacity : ℕ} (h : 0 < capacity) :
    (newCommandBuffer capacity).Init := ⟨h, rfl⟩

/-! ## What a step does -/

/-- What a step can do. -/
inductive Stepped (b : CommandBuffer) : CommandBuffer → Prop
  /-- `Enqueue` is called. -/
  | called {action : String} {payload : Any} :
      Stepped b { b with
        calls := b.calls ++ [{ cmd := ⟨b.next, action, payload⟩ }]
        next := b.next + 1 }
  /-- A call goes on. -/
  | turned {i : ℕ} {c : EnqueueCall} {pc : EnqueuePC} : b.calls[i]? = some c →
      Stepped b { b with calls := b.calls.set i { c with pc := pc } }
  /-- The command of a call is in the channel. -/
  | queued {i : ℕ} {c : EnqueueCall} : b.calls[i]? = some c → b.queue.length < b.capacity →
      Stepped b ({ b.hangUp i with queue := b.queue ++ [c.cmd] }.note (.queued c.cmd.id))
  /-- A call returns, or panics, without its command in the channel. -/
  | refused {i : ℕ} {c : EnqueueCall} {e : BufferEntry} : b.calls[i]? = some c →
      e = .rejected c.cmd.id ∨ e = .panicked c.cmd.id → Stepped b ((b.hangUp i).note e)
  /-- The oldest command is given up. -/
  | dropped {i : ℕ} {c : EnqueueCall} {pc : EnqueuePC} {old : QueuedCommand}
      {rest : List QueuedCommand} : b.calls[i]? = some c → b.queue = old :: rest →
      Stepped b ({ b with calls := b.calls.set i { c with pc := pc }, queue := rest }.note
        (.dropped old.id))
  /-- The worker takes the oldest command out. -/
  | received {cmd : QueuedCommand} {rest : List QueuedCommand} :
      b.worker = .receiving → b.queue = cmd :: rest →
      Stepped b { b with worker := .holding cmd, queue := rest }
  /-- A goroutine is started for it. -/
  | acquired {cmd : QueuedCommand} : b.worker = .holding cmd → b.sem < maxConcurrentRetries →
      Stepped b ({ b with
        worker := .receiving
        sem := b.sem + 1
        retries := b.retries ++ [Retry.start cmd] }.note (.started cmd.id))
  /-- The worker ends. -/
  | quit {cmd : QueuedCommand} : b.worker = .holding cmd →
      Stepped b ({ b with worker := .ended }.note (.lost cmd.id))
  /-- The worker drains the semaphore, or ends. -/
  | drained {worker : WorkerPC} {sem : ℕ} : b.worker.held = none → b.worker ≠ .ended →
      worker.held = none → b.sem ≤ sem → sem ≤ max b.sem maxConcurrentRetries →
      Stepped b { b with worker := worker, sem := sem }
  /-- A goroutine comes to `publishOnce`. -/
  | tested {i : ℕ} {r : Retry} : b.retries[i]? = some r → r.pc = .testing →
      Stepped b (b.move i { r with pc := .publishing })
  /-- A command is handed to the broker. -/
  | handed {i : ℕ} {r : Retry} : b.retries[i]? = some r → r.pc = .publishing →
      Stepped b ((b.move i { r with pc := .waiting }).note (.handed r.cmd.id))
  /-- A goroutine pauses. -/
  | paused {i : ℕ} {r : Retry} : b.retries[i]? = some r → r.pc = .publishing ∨ r.pc = .waiting →
      r.attempt ≠ maxRetries → Stepped b (b.move i { r with pc := .sleeping })
  /-- A pause is over. -/
  | woken {i : ℕ} {r : Retry} : b.retries[i]? = some r → r.pc = .sleeping →
      Stepped b (b.move i { r with
        pc := .testing
        attempt := r.attempt + 1
        delay := min (r.delay * 2) maxDelay })
  /-- A command is published, or given up. -/
  | settled {i : ℕ} {r : Retry} {e : BufferEntry} : b.retries[i]? = some r → r.isLive = true →
      e = .published r.cmd.id ∧ r.pc = .waiting ∨ e = .failed r.cmd.id →
      Stepped b ((b.move i { r with pc := .leaving }).note e)
  /-- A token is given back. -/
  | released {i : ℕ} {r : Retry} : b.retries[i]? = some r → r.pc = .leaving →
      Stepped b { b.move i { r with pc := .returning } with sem := b.sem - 1 }
  /-- A goroutine ends. -/
  | done {i : ℕ} {r : Retry} : b.retries[i]? = some r → r.pc = .returning →
      Stepped b { b with retries := b.retries.eraseIdx i }
  /-- `Stop` goes on. -/
  | stopping {stop : BufferStopPC} : b.stop ≠ .returned → stop ≠ .returned →
      Stepped b { b with stop := stop }
  /-- `Stop` returns. -/
  | stopped : b.worker = .ended → b.retries = [] →
      Stepped b ({ b with stop := .returned }.note .stopped)

theorem stepped_put {b : CommandBuffer} {i : ℕ} {c : EnqueueCall} {full : CommandBuffer}
    (hc : b.calls[i]? = some c) (hfull : Stepped b full) : Stepped b (b.put i c full) := by
  unfold put
  split_ifs with hclosed hroom
  · exact .refused hc (Or.inr rfl)
  · exact .queued hc hroom
  · exact hfull

theorem stepped_fail {b : CommandBuffer} {i : ℕ} {r : Retry} (hr : b.retries[i]? = some r)
    (hpc : r.pc = .publishing ∨ r.pc = .waiting) (err : String) : Stepped b (b.fail i r err) := by
  unfold fail
  split_ifs with hend
  · exact .settled hr (by rcases hpc with hpc | hpc <;> simp [Retry.isLive, hpc]) (Or.inr rfl)
  · exact .paused hr hpc (not_or.mp hend).2

theorem isWaiting_eq_false {b : CommandBuffer} (h : b.isWaiting = false) :
    b.worker = .ended ∧ b.retries = [] := by
  unfold isWaiting at h
  obtain ⟨hworker, hretries⟩ := Bool.or_eq_false_iff.mp h
  refine ⟨?_, by simpa using hretries⟩
  cases hw : b.worker with
  | ended => rfl
  | _ => simp [hw, WorkerPC.isEnded] at hworker

/-- A step of the system is one of these. -/
theorem stepped_of_step {b b' : CommandBuffer} {e : BufferEvent} (h : b.step e = some b') :
    Stepped b b' := by
  cases e with
  | enqueue action payload =>
    obtain rfl := Option.some.inj h
    exact .called
  | send i =>
    obtain ⟨c, hc, h⟩ := Option.bind_eq_some_iff.mp h
    split_ifs at h
    obtain rfl := Option.some.inj h
    exact stepped_put hc (.turned hc)
  | drop i =>
    obtain ⟨c, hc, h⟩ := Option.bind_eq_some_iff.mp h
    split_ifs at h
    cases hqueue : b.queue with
    | nil =>
      simp only [hqueue] at h
      obtain rfl := Option.some.inj h
      exact hqueue ▸ .turned hc
    | cons old rest =>
      simp only [hqueue] at h
      obtain rfl := Option.some.inj h
      exact .dropped hc hqueue
  | resend i =>
    obtain ⟨c, hc, h⟩ := Option.bind_eq_some_iff.mp h
    split_ifs at h
    obtain rfl := Option.some.inj h
    exact stepped_put hc (.refused hc (Or.inl rfl))
  | receive =>
    unfold step at h
    cases hworker : b.worker with
    | receiving =>
      cases hqueue : b.queue with
      | nil =>
        simp only [hworker, hqueue] at h
        split_ifs at h
        obtain rfl := Option.some.inj h
        exact hqueue ▸ .drained (by rw [hworker]; rfl) (by simp [hworker]) rfl le_rfl
          (le_max_left ..)
      | cons cmd rest =>
        simp only [hworker, hqueue] at h
        obtain rfl := Option.some.inj h
        exact .received hworker hqueue
    | _ => simp [hworker] at h
  | acquire =>
    unfold step at h
    cases hworker : b.worker with
    | holding cmd =>
      simp only [hworker] at h
      split_ifs at h with hsem
      obtain rfl := Option.some.inj h
      exact .acquired hworker hsem
    | _ => simp [hworker] at h
  | quit =>
    unfold step at h
    cases hworker : b.worker with
    | holding cmd =>
      simp only [hworker] at h
      split_ifs at h
      obtain rfl := Option.some.inj h
      exact .quit hworker
    | _ => simp [hworker] at h
  | drain =>
    unfold step at h
    cases hworker : b.worker with
    | draining n =>
      have hheld : b.worker.held = none := by rw [hworker]; rfl
      have hended : b.worker ≠ .ended := by simp [hworker]
      cases n with
      | zero =>
        simp only [hworker] at h
        obtain rfl := Option.some.inj h
        exact .drained hheld hended rfl le_rfl (le_max_left ..)
      | succ n =>
        simp only [hworker] at h
        split_ifs at h with hsem
        · obtain rfl := Option.some.inj h
          exact .drained hheld hended rfl (Nat.le_succ _) (by omega)
        · obtain rfl := Option.some.inj h
          exact .drained hheld hended rfl le_rfl (le_max_left ..)
    | _ => simp [hworker] at h
  | test i =>
    obtain ⟨r, hr, h⟩ := Option.bind_eq_some_iff.mp h
    split_ifs at h with hpc hcancelled
    · obtain rfl := Option.some.inj h
      exact .settled hr (by simp [Retry.isLive, hpc]) (Or.inr rfl)
    · obtain rfl := Option.some.inj h
      exact .tested hr hpc
  | publish i obstacle =>
    obtain ⟨r, hr, h⟩ := Option.bind_eq_some_iff.mp h
    split_ifs at h with hpc
    cases obstacle with
    | none =>
      obtain rfl := Option.some.inj h
      exact .handed hr hpc
    | some obstacle =>
      obtain rfl := Option.some.inj h
      exact stepped_fail hr (Or.inl hpc) _
  | settle i err =>
    obtain ⟨r, hr, h⟩ := Option.bind_eq_some_iff.mp h
    split_ifs at h with hpc
    cases err with
    | none =>
      obtain rfl := Option.some.inj h
      exact .settled hr (by simp [Retry.isLive, hpc]) (Or.inl ⟨rfl, hpc⟩)
    | some err =>
      obtain rfl := Option.some.inj h
      exact stepped_fail hr (Or.inr hpc) _
  | wake i =>
    obtain ⟨r, hr, h⟩ := Option.bind_eq_some_iff.mp h
    split_ifs at h with hpc
    obtain rfl := Option.some.inj h
    exact .woken hr hpc
  | interrupt i =>
    obtain ⟨r, hr, h⟩ := Option.bind_eq_some_iff.mp h
    split_ifs at h with hpc
    obtain rfl := Option.some.inj h
    exact .settled hr (by simp [Retry.isLive, hpc.1]) (Or.inr rfl)
  | release i =>
    obtain ⟨r, hr, h⟩ := Option.bind_eq_some_iff.mp h
    split_ifs at h with hpc
    obtain rfl := Option.some.inj h
    exact .released hr hpc
  | done i =>
    obtain ⟨r, hr, h⟩ := Option.bind_eq_some_iff.mp h
    split_ifs at h with hpc
    obtain rfl := Option.some.inj h
    exact .done hr hpc
  | stop =>
    unfold step at h
    cases hstop : b.stop with
    | running =>
      simp only [hstop] at h
      obtain rfl := Option.some.inj h
      exact .stopping (by simp [hstop]) nofun
    | cancelled =>
      simp only [hstop] at h
      obtain rfl := Option.some.inj h
      exact .stopping (by simp [hstop]) nofun
    | closed =>
      simp only [hstop] at h
      split_ifs at h with hwaiting
      obtain rfl := Option.some.inj h
      obtain ⟨hworker, hretries⟩ := isWaiting_eq_false (Bool.eq_false_iff.mpr hwaiting)
      exact .stopped hworker hretries
    | returned => simp [hstop] at h

end CommandBuffer

end Dashboard
