import InverterDashboard.Mqtt.Fates

set_option relaxedAutoImplicit false
set_option autoImplicit false

/-!
# The attempts of the commands

A goroutine hands its command to the broker again and again, with pauses that double. It does so
while the command has no fate, eleven times at most, and never behind the return of `Stop`.

## Main definitions

* `Dashboard.Retry.Ok` — what holds of a goroutine.
* `Dashboard.CommandBuffer.Basis` — what the entries of the log rest on.

## Main results

* `Dashboard.CommandBuffer.attempted_of_reachable` — the attempts, in every run.
-/

namespace Dashboard

open Trace (Founded)

/-- How often a command was handed to the broker. -/
def handedCount (log : List BufferEntry) (id : ℕ) : ℕ := log.countP (· = .handed id)

/-- A goroutine has a token of the semaphore. -/
def Retry.hasToken (r : Retry) : Bool := decide (r.pc ≠ .returning)

/-- A goroutine has counted its attempts, and its next pause has doubled with each of them. -/
structure Retry.Ok (log : List BufferEntry) (r : Retry) : Prop where
  attempt : r.attempt ≤ maxRetries
  delay : r.delay = min (baseDelay * 2 ^ r.attempt) maxDelay
  sleeping : r.pc = .sleeping → r.attempt ≠ maxRetries
  started : r.isLive = true → .started r.cmd.id ∈ log
  handed : r.isLive = true → handedCount log r.cmd.id ≤
    r.attempt + if r.pc = .waiting ∨ r.pc = .sleeping then 1 else 0
  waiting : r.pc = .waiting → .handed r.cmd.id ∈ log

/-- The first pause. -/
theorem Retry.delay_start (cmd : QueuedCommand) :
    (start cmd).delay = min (baseDelay * 2 ^ (start cmd).attempt) maxDelay := by
  show baseDelay = min (baseDelay * 2 ^ 0) maxDelay
  decide

theorem Retry.Ok.cons {log : List BufferEntry} {r : Retry} (h : r.Ok log) {e : BufferEntry}
    (he : r.isLive = true → e ≠ .handed r.cmd.id) : r.Ok (e :: log) where
  attempt := h.attempt
  delay := h.delay
  sleeping := h.sleeping
  started hlive := List.mem_cons_of_mem e (h.started hlive)
  handed hlive := by
    have := h.handed hlive
    simpa [handedCount, List.countP_cons, he hlive] using this
  waiting hpc := List.mem_cons_of_mem e (h.waiting hpc)

/-- A goroutine that is done with its command owes nothing. -/
theorem Retry.Ok.left {log log' : List BufferEntry} {r : Retry} (h : r.Ok log) {pc : RetryPC}
    (hpc : pc = .leaving ∨ pc = .returning) : Retry.Ok log' { r with pc := pc } := by
  rcases hpc with rfl | rfl <;>
    exact ⟨h.attempt, h.delay, by simp, by simp [isLive], by simp [isLive], by simp⟩

/-- A goroutine that is started has made no attempt. -/
theorem Retry.ok_start {log : List BufferEntry} {cmd : QueuedCommand} (h : .started cmd.id ∈ log)
    (hzero : handedCount log cmd.id = 0) : (Retry.start cmd).Ok log :=
  ⟨Nat.zero_le _, delay_start cmd, by simp [start], fun _ => h,
    fun _ => hzero.trans_le (Nat.zero_le _), by simp [start]⟩

/-- An entry about a command that no goroutine has. -/
def BufferEntry.isOutside : BufferEntry → Bool
  | .queued _ | .dropped _ | .rejected _ | .lost _ | .panicked _ => true
  | _ => false

namespace CommandBuffer

/-- What an entry rests on. -/
def Basis : BufferEntry → List BufferEntry → Prop
  | .started id, log => .started id ∉ log ∧ fates log id = 0 ∧ .stopped ∉ log
  | .handed id, log =>
    .started id ∈ log ∧ fates log id = 0 ∧ handedCount log id ≤ maxRetries ∧ .stopped ∉ log
  | .published id, log => .handed id ∈ log ∧ fates log id = 0 ∧ .stopped ∉ log
  | .failed id, log => .started id ∈ log ∧ fates log id = 0 ∧ .stopped ∉ log
  | _, _ => True

/-- The invariant of the attempts. -/
structure Handing (b : CommandBuffer) : Prop where
  retries : ∀ (i : ℕ) (r : Retry), b.retries[i]? = some r → r.Ok b.log
  kept : ∀ id, .started id ∈ b.log ∨ .handed id ∈ b.log →
    1 ≤ b.retries.countP (Retry.holds id) + fates b.log id
  stopped : .stopped ∈ b.log → b.worker = .ended ∧ b.retries = []
  founded : Founded Basis b.log

theorem fates_le_cons (e : BufferEntry) (log : List BufferEntry) (id : ℕ) :
    fates log id ≤ fates (e :: log) id := (List.sublist_cons_self e log).countP_le

/-- The goroutines stay as they are, and nothing is noted about them. -/
theorem Handing.frame {b b' : CommandBuffer} (h : b.Handing) (hretries : b'.retries = b.retries)
    (hworker : b.worker = .ended → b'.worker = .ended)
    (hlog : b'.log = b.log ∨ ∃ e, b'.log = e :: b.log ∧ e.isOutside = true) : b'.Handing := by
  rcases hlog with hlog | ⟨e, hlog, he⟩
  · refine ⟨by rw [hretries, hlog]; exact h.retries, by rw [hretries, hlog]; exact h.kept,
      fun hmem => ?_, by rw [hlog]; exact h.founded⟩
    obtain ⟨hended, hnil⟩ := h.stopped (hlog ▸ hmem)
    exact ⟨hworker hended, hretries.trans hnil⟩
  · refine ⟨fun i r hr => ?_, fun id hid => ?_, fun hmem => ?_, ?_⟩
    · rw [hretries] at hr
      rw [hlog]
      exact (h.retries i r hr).cons fun _ heq => by simp [heq, BufferEntry.isOutside] at he
    · rw [hretries, hlog]
      refine (h.kept id ?_).trans (Nat.add_le_add_left (fates_le_cons e b.log id) _)
      rw [hlog] at hid
      refine hid.imp (fun hid => ?_) fun hid => ?_ <;>
      · refine (List.mem_cons.mp hid).resolve_left ?_
        rintro rfl
        simp [BufferEntry.isOutside] at he
    · rw [hlog] at hmem
      obtain ⟨hended, hnil⟩ := h.stopped ((List.mem_cons.mp hmem).resolve_left
        (by rintro rfl; simp [BufferEntry.isOutside] at he))
      exact ⟨hworker hended, hretries.trans hnil⟩
    · rw [hlog]
      refine ⟨?_, h.founded⟩
      cases e <;> trivial

/-- `Stop` has not returned while a goroutine is there. -/
theorem Handing.not_stopped {b : CommandBuffer} (h : b.Handing) {i : ℕ} {r : Retry}
    (hr : b.retries[i]? = some r) : .stopped ∉ b.log := by
  intro hmem
  simp [(h.stopped hmem).2] at hr

/-- A goroutine moves on with its command. -/
theorem Handing.move {b : CommandBuffer} (h : b.Handing) {i : ℕ} {r t : Retry}
    (hr : b.retries[i]? = some r) (hok : t.Ok b.log) (hlive : t.isLive = r.isLive)
    (hcmd : t.cmd = r.cmd) (sem : ℕ) : Handing { b.move i t with sem := sem } where
  retries j x hx := by
    rcases Pool.getElem?_set hx with ⟨hx, -⟩ | ⟨-, rfl⟩
    · exact h.retries j x hx
    · exact hok
  kept id hid := by
    simp only [CommandBuffer.move, countP_move hr hcmd hlive id]
    exact h.kept id hid
  stopped hmem := absurd hmem (h.not_stopped hr)
  founded := h.founded

/-- A goroutine has its command, so it has no fate and no other goroutine has it. -/
theorem Accounted.live {b : CommandBuffer} (h : b.Accounted) {i : ℕ} {r : Retry}
    (hr : b.retries[i]? = some r) (hlive : r.isLive = true) :
    fates b.log r.cmd.id = 0 ∧ b.retries.countP (Retry.holds r.cmd.id) ≤ 1 := by
  have hid := h r.cmd.id
  have hpos : 0 < b.retries.countP (Retry.holds r.cmd.id) :=
    List.countP_pos_iff.mpr ⟨r, List.mem_of_getElem? hr, by simp [hlive]⟩
  unfold places at hid
  split_ifs at hid <;> omega

/-- A command is handed to the broker. -/
theorem Handing.hand {b : CommandBuffer} (h : b.Handing) (hb : b.Accounted) {i : ℕ} {r : Retry}
    (hr : b.retries[i]? = some r) (hpc : r.pc = .publishing) :
    Handing ((b.move i { r with pc := .waiting }).note (.handed r.cmd.id)) := by
  have hok := h.retries i r hr
  have hlive : r.isLive = true := by simp [Retry.isLive, hpc]
  obtain ⟨hfates, hone⟩ := hb.live hr hlive
  have hcount : handedCount b.log r.cmd.id ≤ r.attempt := by simpa [hpc] using hok.handed hlive
  refine ⟨fun j x hx => ?_, fun id hid => ?_, fun hmem => ?_, ?_, h.founded⟩
  · rcases Pool.getElem?_set hx with ⟨hx, hne⟩ | ⟨-, rfl⟩
    · refine (h.retries j x hx).cons fun hxlive heq => hne ?_
      have hcmd : x.cmd.id = r.cmd.id := (BufferEntry.handed.inj heq).symm
      exact Pool.eq_of_countP_le_one hone hr hx (by simp [hlive]) (by simp [hxlive, hcmd])
    · refine ⟨hok.attempt, hok.delay, by simp, fun _ => List.mem_cons_of_mem _ (hok.started hlive),
        fun _ => ?_, fun _ => List.mem_cons_self⟩
      simpa [handedCount, note, CommandBuffer.move] using hcount
  · have hset := countP_move (t := { r with pc := .waiting }) hr rfl
      (by simp [Retry.isLive, hpc]) id
    have hkept : 1 ≤ b.retries.countP (Retry.holds id) + fates b.log id := by
      by_cases hid' : r.cmd.id = id
      · have hpos : 0 < b.retries.countP (Retry.holds id) :=
          List.countP_pos_iff.mpr ⟨r, List.mem_of_getElem? hr, by simp [hlive, hid']⟩
        omega
      · refine h.kept id (hid.imp (fun hid => ?_) fun hid => ?_)
        · exact List.mem_of_ne_of_mem (by simp) hid
        · exact (List.mem_cons.mp hid).resolve_left fun heq =>
            hid' (BufferEntry.handed.inj heq).symm
    have := fates_le_cons (.handed r.cmd.id) b.log id
    simp only [note, CommandBuffer.move, hset]
    omega
  · exact absurd (List.mem_of_ne_of_mem (by simp) hmem) (h.not_stopped hr)
  · exact ⟨hok.started hlive, hfates, hcount.trans hok.attempt, h.not_stopped hr⟩

/-- A goroutine is done with its command. -/
theorem Handing.settle {b : CommandBuffer} (h : b.Handing) (hb : b.Accounted) {i : ℕ} {r : Retry}
    {e : BufferEntry} (hr : b.retries[i]? = some r) (hlive : r.isLive = true)
    (he : e = .published r.cmd.id ∧ r.pc = .waiting ∨ e = .failed r.cmd.id) :
    Handing ((b.move i { r with pc := .leaving }).note e) := by
  have hok := h.retries i r hr
  obtain ⟨hfates, -⟩ := hb.live hr hlive
  have hnot : ∀ id, e ≠ .started id ∧ e ≠ .handed id ∧ e ≠ .stopped := fun id => by
    rcases he with ⟨rfl, -⟩ | rfl <;> exact ⟨by simp, by simp, by simp⟩
  refine ⟨fun j x hx => ?_, fun id hid => ?_, fun hmem => ?_, ?_, h.founded⟩
  · rcases Pool.getElem?_set hx with ⟨hx, -⟩ | ⟨-, rfl⟩
    · exact (h.retries j x hx).cons fun _ => (hnot _).2.1
    · exact hok.left (Or.inl rfl)
  · have hset := countP_leave (t := { r with pc := .leaving }) hr hlive rfl id
    have hkept := h.kept id (hid.imp
      (fun hid => (List.mem_cons.mp hid).resolve_left (hnot id).1.symm)
      fun hid => (List.mem_cons.mp hid).resolve_left (hnot id).2.1.symm)
    have hends : fates (e :: b.log) id = fates b.log id + if r.cmd.id = id then 1 else 0 := by
      rcases he with ⟨rfl, -⟩ | rfl <;> simp [fates, List.countP_cons, BufferEntry.final?]
    simp only [note, CommandBuffer.move, hends]
    omega
  · exact absurd ((List.mem_cons.mp hmem).resolve_left (hnot 0).2.2.symm) (h.not_stopped hr)
  · rcases he with ⟨rfl, hpc⟩ | rfl
    · exact ⟨hok.waiting hpc, hfates, h.not_stopped hr⟩
    · exact ⟨hok.started hlive, hfates, h.not_stopped hr⟩

/-- A goroutine is started. -/
theorem Handing.acquire {b : CommandBuffer} (h : b.Handing) (hb : b.Accounted) {cmd : QueuedCommand}
    (hworker : b.worker = .holding cmd) :
    Handing ({ b with
      worker := .receiving
      sem := b.sem + 1
      retries := b.retries ++ [Retry.start cmd] }.note (.started cmd.id)) := by
  have hplace := hb cmd.id
  simp only [places, hworker, WorkerPC.held, Option.toList_some, List.countP_singleton,
    decide_true, if_true] at hplace
  have hfresh : fates b.log cmd.id = 0 ∧ b.retries.countP (Retry.holds cmd.id) = 0 := by
    split_ifs at hplace <;> omega
  have hnever : ¬(.started cmd.id ∈ b.log ∨ .handed cmd.id ∈ b.log) := fun hid => by
    have := h.kept cmd.id hid
    omega
  rw [not_or] at hnever
  have hstopped : .stopped ∉ b.log := fun hmem => by simp [(h.stopped hmem).1] at hworker
  refine ⟨fun j x hx => ?_, fun id hid => ?_, fun hmem => ?_, ⟨hnever.1, hfresh.1, hstopped⟩,
    h.founded⟩
  · simp only [note, List.getElem?_append] at hx
    split_ifs at hx with hlt
    · exact (h.retries j x hx).cons fun _ => by simp
    · obtain rfl := List.mem_singleton.mp (List.mem_of_getElem? hx)
      refine Retry.ok_start List.mem_cons_self (List.countP_eq_zero.mpr fun e he => ?_)
      rw [decide_eq_true_eq]
      rintro rfl
      exact hnever.2 (List.mem_of_ne_of_mem (by simp) he)
  · have hnew : (b.retries ++ [Retry.start cmd]).countP (Retry.holds id) =
        b.retries.countP (Retry.holds id) + if cmd.id = id then 1 else 0 := by
      simp only [List.countP_append, List.countP_singleton, Retry.holds_start]
    have := fates_le_cons (.started cmd.id) b.log id
    simp only [note, hnew]
    by_cases hid' : cmd.id = id
    · rw [if_pos hid']
      omega
    · have hkept : 1 ≤ b.retries.countP (Retry.holds id) + fates b.log id := by
        refine h.kept id (hid.imp (fun hid => ?_) fun hid => ?_)
        · exact (List.mem_cons.mp hid).resolve_left fun heq =>
            hid' (BufferEntry.started.inj heq).symm
        · exact List.mem_of_ne_of_mem (by simp) hid
      omega
  · exact absurd (List.mem_of_ne_of_mem (by simp) hmem) hstopped

/-- The invariant is kept by every step. -/
theorem Handing.step {b b' : CommandBuffer} {e : BufferEvent} (h : b.Handing) (hb : b.Accounted)
    (hstep : b.step e = some b') : b'.Handing := by
  cases stepped_of_step hstep with
  | called | turned | stopping => exact h.frame rfl id (Or.inl rfl)
  | queued hc hroom => exact h.frame rfl id (Or.inr ⟨_, rfl, rfl⟩)
  | refused hc he => exact h.frame rfl id (Or.inr ⟨_, rfl, by rcases he with rfl | rfl <;> rfl⟩)
  | dropped hc hqueue => exact h.frame rfl id (Or.inr ⟨_, rfl, rfl⟩)
  | received hworker hqueue => exact h.frame rfl (by simp [hworker]) (Or.inl rfl)
  | acquired hworker hsem => exact h.acquire hb hworker
  | quit hworker => exact h.frame rfl (fun _ => rfl) (Or.inr ⟨_, rfl, rfl⟩)
  | drained hheld hended hheld' hle hmax => exact h.frame rfl (absurd · hended) (Or.inl rfl)
  | @tested i r hr hpc =>
    have hok := h.retries i r hr
    have hlive : r.isLive = true := by simp [Retry.isLive, hpc]
    refine h.move (t := { r with pc := .publishing }) hr ⟨hok.attempt, hok.delay, by simp,
      fun _ => hok.started hlive, fun _ => ?_, by simp⟩ (by simp [Retry.isLive, hpc]) rfl b.sem
    simpa [hpc] using hok.handed hlive
  | handed hr hpc => exact h.hand hb hr hpc
  | @paused i r hr hpc hattempt =>
    have hok := h.retries i r hr
    have hlive : r.isLive = true := by rcases hpc with hpc | hpc <;> simp [Retry.isLive, hpc]
    refine h.move (t := { r with pc := .sleeping }) hr ⟨hok.attempt, hok.delay, fun _ => hattempt,
      fun _ => hok.started hlive, fun _ => ?_, by simp⟩ (by rw [hlive]; rfl) rfl b.sem
    have := hok.handed hlive
    simp only [reduceCtorEq, or_true, if_true]
    split_ifs at this <;> omega
  | @woken i r hr hpc =>
    have hok := h.retries i r hr
    have hlive : r.isLive = true := by simp [Retry.isLive, hpc]
    have hattempt := hok.sleeping hpc
    refine h.move (t := { r with
      pc := .testing
      attempt := r.attempt + 1
      delay := min (r.delay * 2) maxDelay }) hr ⟨?_, ?_, by simp, fun _ => hok.started hlive,
      fun _ => ?_, by simp⟩ (by simp [Retry.isLive, hpc]) rfl b.sem
    · have := hok.attempt
      dsimp only
      omega
    · dsimp only
      rw [hok.delay, pow_succ, ← Nat.mul_assoc]
      omega
    · simpa [hpc] using hok.handed hlive
  | settled hr hlive he => exact h.settle hb hr hlive he
  | @released i r hr hpc =>
    exact h.move hr ((h.retries i r hr).left (Or.inr rfl)) (by simp [Retry.isLive, hpc]) rfl _
  | @done i r hr hpc =>
    refine ⟨fun j x hx => ?_, fun id hid => ?_, fun hmem => absurd hmem (h.not_stopped hr),
      h.founded⟩
    · obtain ⟨k, hk⟩ := List.mem_iff_getElem?.mp
        ((List.eraseIdx_sublist ..).subset (List.mem_of_getElem? hx))
      exact h.retries k x hk
    · have herase := Pool.countP_eraseIdx (Retry.holds id) hr
      have := h.kept id hid
      simp [Retry.isLive, hpc] at herase
      dsimp only
      omega
  | stopped hworker hretries =>
    refine ⟨fun i r hr => by simp [note, hretries] at hr, fun id hid => ?_,
      fun _ => ⟨hworker, hretries⟩, trivial, h.founded⟩
    refine (h.kept id (hid.imp (fun hid => ?_) fun hid => ?_)).trans
      (Nat.add_le_add_left (fates_le_cons .stopped b.log id) _)
    · exact List.mem_of_ne_of_mem (by simp) hid
    · exact List.mem_of_ne_of_mem (by simp) hid

/-! ## The goroutines at a time -/

/-- The tokens of the goroutines are in the semaphore, and the commands in the channel. -/
structure Bounded (b : CommandBuffer) : Prop where
  tokens : b.retries.countP Retry.hasToken ≤ b.sem
  sem : b.sem ≤ maxConcurrentRetries
  queue : b.queue.length ≤ b.capacity

/-- A goroutine moves on with its token. -/
theorem countP_hasToken {retries : List Retry} {i : ℕ} {r r' : Retry} (hr : retries[i]? = some r)
    (htoken : r'.hasToken = r.hasToken) :
    (retries.set i r').countP Retry.hasToken = retries.countP Retry.hasToken := by
  have hset := Pool.countP_set Retry.hasToken hr r'
  rw [htoken] at hset
  omega

theorem Bounded.step {b b' : CommandBuffer} {e : BufferEvent} (h : b.Bounded)
    (hstep : b.step e = some b') : b'.Bounded := by
  obtain ⟨htokens, hsem, hqueue⟩ := h
  cases stepped_of_step hstep with
  | called | turned | stopping | stopped | refused | quit => exact ⟨htokens, hsem, hqueue⟩
  | queued hc hroom =>
    refine ⟨htokens, hsem, ?_⟩
    simp only [note, hangUp, List.length_append, List.length_singleton]
    exact hroom
  | dropped hc hold | received hworker hold =>
    rw [hold, List.length_cons] at hqueue
    exact ⟨htokens, hsem, Nat.le_of_succ_le hqueue⟩
  | acquired hworker hroom =>
    refine ⟨?_, hroom, hqueue⟩
    simp only [note, List.countP_append, List.countP_singleton]
    exact Nat.add_le_add htokens (by simp [Retry.start, Retry.hasToken])
  | drained hheld hended hheld' hle hmax =>
    exact ⟨htokens.trans hle, hmax.trans (max_le hsem le_rfl), hqueue⟩
  | tested hr hpc | handed hr hpc | woken hr hpc =>
    exact ⟨(countP_hasToken hr (by simp [Retry.hasToken, hpc])).trans_le htokens, hsem, hqueue⟩
  | paused hr hpc hattempt =>
    refine ⟨(countP_hasToken hr ?_).trans_le htokens, hsem, hqueue⟩
    rcases hpc with hpc | hpc <;> simp [Retry.hasToken, hpc]
  | settled hr hlive he =>
    refine ⟨(countP_hasToken hr ?_).trans_le htokens, hsem, hqueue⟩
    simpa [Retry.hasToken] using (of_decide_eq_true hlive).2
  | @released i r hr hpc =>
    have hset := Pool.countP_set Retry.hasToken hr { r with pc := .returning }
    simp [Retry.hasToken, hpc] at hset
    refine ⟨?_, (Nat.sub_le ..).trans hsem, hqueue⟩
    simp only [CommandBuffer.move]
    omega
  | done hr hpc =>
    have herase := Pool.countP_eraseIdx Retry.hasToken hr
    exact ⟨by dsimp only; omega, hsem, hqueue⟩

theorem bounded_init {b : CommandBuffer} (h : b.Init) : b.Bounded := by
  rw [h.2]
  exact ⟨le_rfl, Nat.zero_le _, Nat.zero_le _⟩

theorem handing_init {b : CommandBuffer} (h : b.Init) : b.Handing := by
  rw [h.2]
  exact ⟨by simp [newCommandBuffer], by simp [newCommandBuffer], by simp [newCommandBuffer],
    trivial⟩

/-- **The attempts.** In every run, a command is handed to the broker only by the goroutine that was
started for it, while it has no fate, eleven times at most, and not once `Stop` has returned; it is
published only behind such an attempt; ten goroutines at most are at work at a time, and the pauses
of each double from a tenth of a second to half a minute. -/
theorem attempted_of_reachable {b : CommandBuffer}
    (h : Transition.Reachable CommandBuffer.step (fun _ _ => True) Init b) :
    Founded Basis b.log ∧ (∀ id, handedCount b.log id ≤ maxRetries + 1) ∧
      b.retries.countP Retry.hasToken ≤ maxConcurrentRetries ∧
      b.queue.length ≤ b.capacity ∧
      ∀ r ∈ b.retries, r.delay = min (baseDelay * 2 ^ r.attempt) maxDelay := by
  have hbounded : b.Bounded :=
    h.invariant (I := Bounded) (fun _ => bounded_init) fun _ _ _ hb _ hstep => hb.step hstep
  have hhanding : b.Handing ∧ b.Accounted :=
    h.invariant (I := fun b => b.Handing ∧ b.Accounted)
      (fun _ hb => ⟨handing_init hb, accounted_init hb⟩)
      fun _ _ _ hb _ hstep => ⟨hb.1.step hb.2 hstep, hb.2.step hstep⟩
  refine ⟨hhanding.1.founded, fun id => ?_, hbounded.tokens.trans hbounded.sem, hbounded.queue,
    fun r hr => ?_⟩
  · refine (hhanding.1.founded.mono fun e l he hhanded => ?_).countP_le
    rw [decide_eq_true_eq] at hhanded
    subst hhanded
    exact he.2.2.1
  · obtain ⟨i, hi⟩ := List.mem_iff_getElem?.mp hr
    exact (hhanding.1.retries i r hi).delay

theorem attempted_of_reachable_crowded : ∃ b,
    Transition.Reachable CommandBuffer.step (fun _ _ => True) Init b ∧ .published 1 ∈ b.log ∧
      Founded Basis b.log ∧ handedCount b.log 1 ≤ maxRetries + 1 := by
  obtain ⟨b, hb, hp⟩ := Transition.Reachable.exists_of_run CommandBuffer.step (fun _ _ => True)
    crowded (fun b => decide (.published 1 ∈ b.log))
    (init_newCommandBuffer Nat.one_pos) (Transition.Allowed.of_forall (fun _ _ => trivial) _)
    (by decide +kernel)
  obtain ⟨hfounded, hcount, -⟩ := attempted_of_reachable hb
  exact ⟨b, hb, of_decide_eq_true hp, hfounded, hcount 1⟩

end CommandBuffer

end Dashboard
