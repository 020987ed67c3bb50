import InverterDashboard.Lib.Pool
import InverterDashboard.Mqtt.CommandBuffer

set_option relaxedAutoImplicit false
set_option autoImplicit false

/-!
# The fates of the commands

Every command of a call of `Enqueue` is at exactly one place, or it has exactly one fate: the buffer
neither loses a command silently nor doubles one. And the goroutines are started in the order in
which the commands came into the channel.

## Main definitions

* `Dashboard.CommandBuffer.places` — how often the buffer has a command.
* `Dashboard.CommandBuffer.Ordered` — the commands are taken out in their order.

## Main results

* `Dashboard.CommandBuffer.accounted_of_reachable` — the account and the order, in every run.
-/

namespace Dashboard

/-- A call has a command. -/
def EnqueueCall.holds (id : ℕ) (c : EnqueueCall) : Bool := decide (c.cmd.id = id)

/-- A goroutine has a command. -/
def Retry.holds (id : ℕ) (r : Retry) : Bool := r.isLive && decide (r.cmd.id = id)

/-- An entry is the fate of a command. -/
def BufferEntry.ends (id : ℕ) (e : BufferEntry) : Bool := decide (e.final? = some id)

@[simp] theorem EnqueueCall.holds_eq_true {id : ℕ} {c : EnqueueCall} :
    c.holds id = true ↔ c.cmd.id = id := decide_eq_true_iff

@[simp] theorem Retry.holds_eq_true {id : ℕ} {r : Retry} :
    r.holds id = true ↔ r.isLive = true ∧ r.cmd.id = id := by simp [holds]

theorem Retry.holds_start {id : ℕ} {cmd : QueuedCommand} :
    (Retry.start cmd).holds id = true ↔ cmd.id = id := by simp [start, isLive]

@[simp] theorem BufferEntry.ends_eq_true {id : ℕ} {e : BufferEntry} :
    e.ends id = true ↔ e.final? = some id := decide_eq_true_iff

namespace CommandBuffer

/-- How often the buffer has a command. -/
def places (b : CommandBuffer) (id : ℕ) : ℕ :=
  b.calls.countP (EnqueueCall.holds id) + b.queue.countP (fun cmd => cmd.id = id) +
    b.worker.held.toList.countP (fun cmd => cmd.id = id) + b.retries.countP (Retry.holds id)

/-- How many fates a command has. -/
def fates (log : List BufferEntry) (id : ℕ) : ℕ := log.countP (BufferEntry.ends id)

/-- Every command is at one place or has one fate. -/
def Accounted (b : CommandBuffer) : Prop :=
  ∀ id, b.places id + fates b.log id = if id < b.next then 1 else 0

/-- A goroutine moves on with its command. -/
theorem countP_move {retries : List Retry} {i : ℕ} {r t : Retry} (hr : retries[i]? = some r)
    (hcmd : t.cmd = r.cmd) (hlive : t.isLive = r.isLive) (id : ℕ) :
    (retries.set i t).countP (Retry.holds id) = retries.countP (Retry.holds id) := by
  have hholds : t.holds id = r.holds id := by unfold Retry.holds; rw [hcmd, hlive]
  have hset := Pool.countP_set (Retry.holds id) hr t
  rw [hholds] at hset
  omega

/-- A goroutine is done with its command. -/
theorem countP_leave {retries : List Retry} {i : ℕ} {r t : Retry} (hr : retries[i]? = some r)
    (hlive : r.isLive = true) (hlive' : t.isLive = false) (id : ℕ) :
    (retries.set i t).countP (Retry.holds id) + (if r.cmd.id = id then 1 else 0) =
      retries.countP (Retry.holds id) := by
  have hset := Pool.countP_set (Retry.holds id) hr t
  simpa [hlive, hlive'] using hset

/-- The places and the fates of a command change together. -/
theorem Accounted.keep {b b' : CommandBuffer} (h : b.Accounted) (hnext : b'.next = b.next)
    (hsum : ∀ id, b'.places id + fates b'.log id = b.places id + fates b.log id) :
    b'.Accounted := by
  intro id
  rw [hsum id, hnext]
  exact h id

theorem Accounted.step {b b' : CommandBuffer} {e : BufferEvent} (h : b.Accounted)
    (hstep : b.step e = some b') : b'.Accounted := by
  cases stepped_of_step hstep with
  | @called action payload =>
    intro id
    have hid := h id
    have hplaces : CommandBuffer.places { b with
        calls := b.calls ++ [{ cmd := ⟨b.next, action, payload⟩ }]
        next := b.next + 1 } id = b.places id + if b.next = id then 1 else 0 := by
      simp only [places, List.countP_append, List.countP_singleton, EnqueueCall.holds_eq_true]
      omega
    rw [hplaces]
    show _ + _ + fates b.log id = if id < b.next + 1 then 1 else 0
    split_ifs at hid ⊢ <;> omega
  | @turned i c pc hc =>
    refine h.keep rfl fun id => ?_
    have hset := Pool.countP_set (EnqueueCall.holds id) hc { c with pc := pc }
    simp only [EnqueueCall.holds_eq_true] at hset
    simp only [places]
    omega
  | @queued i c hc hroom =>
    refine h.keep rfl fun id => ?_
    have herase := Pool.countP_eraseIdx (EnqueueCall.holds id) hc
    simp only [EnqueueCall.holds_eq_true] at herase
    simp only [places, fates, note, hangUp, List.countP_append, List.countP_nil, List.countP_cons,
      BufferEntry.ends_eq_true, BufferEntry.final?, reduceCtorEq, if_false, decide_eq_true_eq]
    omega
  | @refused i c e hc he =>
    refine h.keep rfl fun id => ?_
    have herase := Pool.countP_eraseIdx (EnqueueCall.holds id) hc
    have hends : e.ends id = true ↔ c.cmd.id = id := by
      rcases he with rfl | rfl <;> simp [BufferEntry.final?]
    simp only [EnqueueCall.holds_eq_true] at herase
    simp only [places, fates, note, hangUp, List.countP_cons, hends]
    omega
  | @dropped i c pc old rest hc hqueue =>
    refine h.keep rfl fun id => ?_
    have hset := Pool.countP_set (EnqueueCall.holds id) hc { c with pc := pc }
    simp only [EnqueueCall.holds_eq_true] at hset
    simp only [places, fates, note, hqueue, List.countP_cons, BufferEntry.ends_eq_true,
      BufferEntry.final?, Option.some.injEq, decide_eq_true_eq]
    omega
  | received hworker hqueue =>
    refine h.keep rfl fun id => ?_
    simp only [places, hqueue, hworker, WorkerPC.held, Option.toList_none, Option.toList_some,
      List.countP_nil, List.countP_cons]
    omega
  | acquired hworker hsem =>
    refine h.keep rfl fun id => ?_
    simp only [places, fates, note, hworker, WorkerPC.held, Option.toList_none, Option.toList_some,
      List.countP_nil, List.countP_cons, List.countP_append, Retry.holds_start,
      BufferEntry.ends_eq_true, BufferEntry.final?, reduceCtorEq, if_false, decide_eq_true_eq]
    omega
  | quit hworker =>
    refine h.keep rfl fun id => ?_
    simp only [places, fates, note, hworker, WorkerPC.held, Option.toList_none, Option.toList_some,
      List.countP_nil, List.countP_cons, BufferEntry.ends_eq_true, BufferEntry.final?,
      Option.some.injEq, decide_eq_true_eq]
    omega
  | drained hheld hended hheld' hle hmax =>
    refine h.keep rfl fun id => ?_
    simp only [places, hheld, hheld']
  | @tested i r hr hpc =>
    refine h.keep rfl fun id => ?_
    have hset := countP_move (t := { r with pc := .publishing }) hr rfl
      (by simp [Retry.isLive, hpc]) id
    simp only [places, move, hset]
  | @handed i r hr hpc =>
    refine h.keep rfl fun id => ?_
    have hset := countP_move (t := { r with pc := .waiting }) hr rfl
      (by simp [Retry.isLive, hpc]) id
    simp only [places, fates, note, move, hset, List.countP_cons, BufferEntry.ends_eq_true,
      BufferEntry.final?, reduceCtorEq, if_false, Nat.add_zero]
  | @paused i r hr hpc hattempt =>
    refine h.keep rfl fun id => ?_
    have hset := countP_move (t := { r with pc := .sleeping }) hr rfl
      (by rcases hpc with hpc | hpc <;> simp [Retry.isLive, hpc]) id
    simp only [places, move, hset]
  | @woken i r hr hpc =>
    refine h.keep rfl fun id => ?_
    have hset := countP_move (t := { r with
      pc := .testing
      attempt := r.attempt + 1
      delay := min (r.delay * 2) maxDelay }) hr rfl (by simp [Retry.isLive, hpc]) id
    simp only [places, move, hset]
  | @settled i r e hr hlive he =>
    refine h.keep rfl fun id => ?_
    have hset := countP_leave (t := { r with pc := .leaving }) hr hlive rfl id
    have hends : e.ends id = true ↔ r.cmd.id = id := by
      rcases he with ⟨rfl, -⟩ | rfl <;> simp [BufferEntry.final?]
    simp only [places, fates, note, move, List.countP_cons, hends]
    omega
  | @released i r hr hpc =>
    refine h.keep rfl fun id => ?_
    have hset := countP_move (t := { r with pc := .returning }) hr rfl
      (by simp [Retry.isLive, hpc]) id
    simp only [places, move, hset]
  | @done i r hr hpc =>
    refine h.keep rfl fun id => ?_
    have herase := Pool.countP_eraseIdx (Retry.holds id) hr
    simp only [Retry.holds_eq_true, Retry.isLive, hpc, ne_eq, not_true_eq_false, and_false,
      decide_false, Bool.false_eq_true, false_and, if_false] at herase
    simp only [places]
    omega
  | stopping hstop hstop' => exact h.keep rfl fun id => rfl
  | stopped hworker hretries =>
    refine h.keep rfl fun id => ?_
    simp only [places, fates, note, List.countP_cons, BufferEntry.ends_eq_true, BufferEntry.final?,
      reduceCtorEq, if_false, Nat.add_zero]

theorem accounted_init {b : CommandBuffer} (h : b.Init) : b.Accounted := by
  intro id
  rw [h.2]
  simp [places, fates, newCommandBuffer, WorkerPC.held]

/-! ## The order -/

/-- The commands that are taken out of the channel, the latest first, are followed by the goroutines
that are started. -/
def Ordered (b : CommandBuffer) : Prop :=
  ∃ taken, b.log.filterMap BufferEntry.queued? = (b.queue.map QueuedCommand.id).reverse ++ taken ∧
    (b.worker.held.toList.map QueuedCommand.id ++
      b.log.filterMap BufferEntry.started?).Sublist taken

theorem Ordered.step {b b' : CommandBuffer} {e : BufferEvent} (h : b.Ordered)
    (hstep : b.step e = some b') : b'.Ordered := by
  obtain ⟨taken, hqueued, hstarted⟩ := h
  cases stepped_of_step hstep with
  | queued hc hroom =>
    refine ⟨taken, ?_, hstarted⟩
    simp [note, hangUp, BufferEntry.queued?, hqueued]
  | refused hc he =>
    refine ⟨taken, ?_, ?_⟩
    · rcases he with rfl | rfl <;> exact hqueued
    · rcases he with rfl | rfl <;> exact hstarted
  | @dropped i c pc old rest hc hqueue =>
    rw [hqueue] at hqueued
    exact ⟨old.id :: taken, hqueued.trans (by simp [note]),
      hstarted.cons old.id⟩
  | @received cmd rest hworker hqueue =>
    rw [hqueue] at hqueued
    rw [hworker] at hstarted
    exact ⟨cmd.id :: taken, by simpa using hqueued, hstarted.cons_cons cmd.id⟩
  | acquired hworker hsem =>
    rw [hworker] at hstarted
    exact ⟨taken, hqueued, hstarted⟩
  | quit hworker =>
    rw [hworker] at hstarted
    exact ⟨taken, hqueued, (List.sublist_cons_self _ _).trans hstarted⟩
  | drained hheld hended hheld' hle hmax =>
    rw [hheld] at hstarted
    exact ⟨taken, hqueued, by rw [hheld']; exact hstarted⟩
  | settled hr hlive he =>
    refine ⟨taken, ?_, ?_⟩
    · rcases he with ⟨rfl, -⟩ | rfl <;> exact hqueued
    · rcases he with ⟨rfl, -⟩ | rfl <;> exact hstarted
  | called | turned | tested | handed | paused | woken | released | done | stopping | stopped =>
    exact ⟨taken, hqueued, hstarted⟩

/-- **Every command has one fate, and they are started in their order.** In every run, a command of
`Enqueue` is at one place or has one fate, and the goroutines are started in the order in which the
commands came into the channel. -/
theorem accounted_of_reachable {b : CommandBuffer}
    (h : Transition.Reachable step (fun _ _ => True) Init b) :
    (∀ id, b.places id + fates b.log id = if id < b.next then 1 else 0) ∧
      (b.log.filterMap BufferEntry.started?).Sublist (b.log.filterMap BufferEntry.queued?) := by
  have haccount : b.Accounted :=
    h.invariant (I := Accounted) (fun _ => accounted_init) fun _ _ _ hb _ hstep => hb.step hstep
  have hordered : b.Ordered :=
    h.invariant (I := Ordered) (fun b hb => ⟨[], by rw [hb.2]; rfl, by rw [hb.2]; exact .slnil⟩)
      fun _ _ _ hb _ hstep => hb.step hstep
  obtain ⟨taken, hqueued, hstarted⟩ := hordered
  refine ⟨haccount, (List.sublist_append_right _ _).trans (hstarted.trans ?_)⟩
  rw [hqueued]
  exact List.sublist_append_right _ _

/-- Two commands meet in a channel with one place, and the first one is given up. -/
def crowded : List BufferEvent :=
  [.enqueue "ess" .nil, .send 0, .enqueue "grid" .nil, .send 0, .drop 0, .resend 0, .receive,
    .acquire, .test 0, .publish 0 (some .notConnected), .wake 0, .test 0, .publish 0 none,
    .settle 0 none]

theorem accounted_of_reachable_crowded : ∃ b,
    Transition.Reachable step (fun _ _ => True) Init b ∧
      b.log = [.published 1, .handed 1, .started 1, .queued 1, .dropped 0, .queued 0] ∧
      b.places 1 + fates b.log 1 = 1 ∧
      (b.log.filterMap BufferEntry.started?).Sublist (b.log.filterMap BufferEntry.queued?) := by
  obtain ⟨b, hb, hp⟩ := Transition.Reachable.exists_of_run step (fun _ _ => True) crowded
    (fun b => decide (b.next = 2 ∧
      b.log = [.published 1, .handed 1, .started 1, .queued 1, .dropped 0, .queued 0]))
    (init_newCommandBuffer Nat.one_pos) (Transition.Allowed.of_forall (fun _ _ => trivial) _)
    (by decide +kernel)
  obtain ⟨hnext, hlog⟩ := of_decide_eq_true hp
  obtain ⟨haccount, horder⟩ := accounted_of_reachable hb
  exact ⟨b, hb, hlog, (haccount 1).trans (by rw [hnext]; rfl), horder⟩

end CommandBuffer

end Dashboard
