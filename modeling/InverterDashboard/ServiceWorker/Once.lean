import InverterDashboard.Lib.Pool
import InverterDashboard.ServiceWorker.System

set_option relaxedAutoImplicit false
set_option autoImplicit false

/-!
# One notification for each event

A delivery shows its notification only after it has claimed the key of the event, and the
transaction of a claim sees the claims of all other deliveries. So a key gets a second notification
only when its record is lost: when the browser refused to display the first one, when the record
has expired, or when more later records are kept than the worker has room for.

## Main definitions

* `ServiceWorker.Worker.Balanced` — the account of the keys.

## Main results

* `ServiceWorker.Worker.shown_le_of_reachable` — the number of notifications of a key, in every run.
-/

namespace ServiceWorker

open Go (Json)

/-- A record was made by a claim, and expires a retention period after it. -/
def Record.Claimed (r : Record) (log : List Entry) : Prop :=
  ∃ now, .claimed r.key now ∈ log ∧ r.expires = now + retentionMS

theorem Record.Claimed.append {r : Record} {log : List Entry} (h : r.Claimed log)
    (es : List Entry) : r.Claimed (es ++ log) := by
  obtain ⟨now, hmem, hexpires⟩ := h
  exact ⟨now, List.mem_append_right es hmem, hexpires⟩

/-- A delivery that is neither about to show its notification nor about to give its claim back. -/
theorem Run.holds_of_phase {r : Run} {key : String}
    (h : ¬(r.phase = .checking ∨ r.phase = .asking ∨ r.phase = .releasing)) :
    r.holds key = false := by
  simp [Run.holds, h]

/-- A delivery that has a claim without a notification. -/
theorem Run.holds_iff {r : Run} {key : String}
    (h : r.phase = .checking ∨ r.phase = .asking ∨ r.phase = .releasing) :
    r.holds key = true ↔ r.event.key = key := by
  simp [Run.holds, h]

namespace Worker

/-- The account of every key: its notifications and the claims without one are covered by the
refusals, the lost records, and the record that is kept. -/
structure Balanced (w : Worker) : Prop where
  single : ∀ key, w.events.countP (fun r => r.key = key) ≤ 1
  covered : ∀ key, w.log.countP (Entry.shows key) + w.runs.countP (Run.holds key) ≤
    w.log.countP (Entry.refuses key) + w.log.countP (Entry.prunes key) +
      w.events.countP (fun r => r.key = key)
  claimed : ∀ r ∈ w.events, r.Claimed w.log
  pruned : ∀ r now (left : ℕ), .pruned r now left ∈ w.log →
    r.Claimed w.log ∧ (r.expires ≤ now ∨ maxEvents ≤ (left : ℤ))

/-- The account when the records stay, a delivery moves and an entry is noted that is no pruned
record. -/
theorem Balanced.note {w : Worker} (h : w.Balanced) {runs : List Run} {saved : Option Settings}
    {e : Entry} (hprunes : ∀ key, e.prunes key = false)
    (hcovered : ∀ key, (if e.shows key then 1 else 0) + runs.countP (Run.holds key) ≤
      (if e.refuses key then 1 else 0) + w.runs.countP (Run.holds key)) :
    Balanced { w with saved := saved, runs := runs, log := e :: w.log } where
  single := h.single
  covered key := by
    have := h.covered key
    have := hcovered key
    simp only [List.countP_cons, hprunes key, Bool.false_eq_true, if_false]
    omega
  claimed r hr := (h.claimed r hr).append [e]
  pruned r now left hmem := by
    rcases List.mem_cons.mp hmem with rfl | hmem
    · exact absurd (hprunes r.key) (by simp [Entry.prunes])
    · exact ⟨(h.pruned r now left hmem).1.append [e], (h.pruned r now left hmem).2⟩

/-- The account when a delivery moves. -/
theorem Balanced.runs {w : Worker} (h : w.Balanced) {runs : List Run}
    (hheld : ∀ key, runs.countP (Run.holds key) ≤ w.runs.countP (Run.holds key)) :
    Balanced { w with runs := runs } where
  single := h.single
  covered key := by
    have := h.covered key
    have := hheld key
    dsimp only
    omega
  claimed := h.claimed
  pruned := h.pruned

/-- The account when a delivery ends. -/
theorem Balanced.finish {w : Worker} (h : w.Balanced) {i : ℕ} {r : Run} (hr : w.runs[i]? = some r) :
    (w.finish i r).Balanced := by
  refine h.runs fun key => ?_
  have hset := Pool.countP_set (Run.holds key) hr { r with phase := .ended }
  rw [Run.holds_of_phase (r := { r with phase := .ended }) (by simp),
    if_neg Bool.false_ne_true] at hset
  omega

/-- The account when records are pruned. -/
theorem Balanced.prune {w : Worker} (h : w.Balanced) (clock : ℕ → ℤ) :
    Balanced { w with
      events := (pruneEvents clock w.events).1
      log := (pruneEvents clock w.events).2 ++ w.log } := by
  obtain ⟨hsub, hcount, hpruned⟩ := prune_spec clock w.events
  have hother : ∀ e ∈ (pruneEvents clock w.events).2, ∀ key,
      e.shows key = false ∧ e.refuses key = false := fun e he => (hpruned e he).other.1
  refine ⟨fun key => ?_, fun key => ?_, fun r hr => (h.claimed r (hsub r hr)).append _, ?_⟩
  · have := hcount key
    have := h.single key
    dsimp only
    omega
  · have hshows : (pruneEvents clock w.events).2.countP (Entry.shows key) = 0 :=
      List.countP_eq_zero.mpr fun e he => by simp [hother e he key]
    have := hcount key
    have := h.covered key
    simp only [List.countP_append, hshows]
    omega
  · intro r now left hmem
    rcases List.mem_append.mp hmem with hmem | hmem
    · obtain ⟨r', hr', now', left', heq, hreason⟩ := hpruned _ hmem
      cases heq
      exact ⟨(h.claimed r hr').append _, hreason⟩
    · exact ⟨(h.pruned r now left hmem).1.append _, (h.pruned r now left hmem).2⟩

/-- The account when a delivery claims its key. -/
theorem Balanced.claim {w : Worker} (h : w.Balanced) {i : ℕ} {r : Run} (hr : w.runs[i]? = some r)
    (hphase : r.phase = .claiming) (hnew : ∀ e ∈ w.events, e.key ≠ r.event.key) (now : ℤ) :
    Balanced { w.move i { r with phase := .checking } with
      events := w.events ++ [⟨r.event.key, now + retentionMS⟩]
      log := .claimed r.event.key now :: w.log } := by
  have hcount : ∀ key, (w.events ++ [(⟨r.event.key, now + retentionMS⟩ : Record)]).countP
      (fun e : Record => e.key = key) = w.events.countP (fun e => e.key = key) +
        if r.event.key = key then 1 else 0 := fun key => by
    simp only [List.countP_append, List.countP_singleton, decide_eq_true_eq]
  refine ⟨fun key => ?_, fun key => ?_, fun e he => ?_, fun e t left hmem => ?_⟩
  · rw [hcount key]
    split_ifs with hkey
    · have hzero : w.events.countP (fun e => e.key = key) = 0 :=
        List.countP_eq_zero.mpr fun e he => by simpa [← hkey] using hnew e he
      omega
    · exact h.single key
  · have hset := Pool.countP_set (Run.holds key) hr { r with phase := .checking }
    have := h.covered key
    simp only [hcount key, move, List.countP_cons, Entry.shows, Entry.refuses, Entry.prunes,
      Bool.false_eq_true, if_false]
    simp [Run.holds, hphase] at hset
    omega
  · rcases List.mem_append.mp he with he | he
    · exact (h.claimed e he).append [_]
    · obtain rfl := List.mem_singleton.mp he
      exact ⟨now, List.mem_cons_self, rfl⟩
  · obtain ⟨hclaimed, hreason⟩ := h.pruned e t left (List.mem_of_ne_of_mem (by simp) hmem)
    exact ⟨hclaimed.append [_], hreason⟩

/-- The account when a delivery gives its claim back. -/
theorem Balanced.release {w : Worker} (h : w.Balanced) {i : ℕ} {r : Run} (hr : w.runs[i]? = some r)
    (hphase : r.phase = .releasing) :
    Balanced { w.finish i r with events := w.events.filter fun e => e.key ≠ r.event.key } := by
  have hcount : ∀ key, (w.events.filter fun e => e.key ≠ r.event.key).countP
      (fun e => e.key = key) = if r.event.key = key then 0 else
        w.events.countP (fun e => e.key = key) := fun key => by
    rw [List.countP_filter]
    split_ifs with hkey
    · exact List.countP_eq_zero.mpr fun e _ => by simp [hkey]
    · refine List.countP_congr fun e _ => ?_
      have : e.key = key → e.key ≠ r.event.key := fun heq => heq ▸ Ne.symm hkey
      simpa using this
  refine ⟨fun key => ?_, fun key => ?_, fun e he => h.claimed e (List.mem_of_mem_filter he),
    h.pruned⟩
  · rw [hcount key]
    have := h.single key
    split_ifs <;> omega
  · have hset := Pool.countP_set (Run.holds key) hr { r with phase := .ended }
    have := h.covered key
    have := h.single key
    simp only [hcount key, Worker.finish, move]
    simp [Run.holds, hphase] at hset
    split_ifs at hset ⊢ <;> omega

/-- Every step keeps the account. -/
theorem Balanced.step {self : String} {w w' : Worker} {a : Action} (h : w.Balanced)
    (hstep : w.step self a = some w') : w'.Balanced := by
  cases stepped_of_step hstep with
  | same => exact h
  | arrived hevent =>
    refine ⟨h.single, fun key => ?_, h.claimed, h.pruned⟩
    have := h.covered key
    simp only [List.countP_append, List.countP_cons, List.countP_nil, Run.holds]
    simpa using this
  | off hmax => exact h.note (fun _ => rfl) (fun key => by simp [Entry.shows, Entry.refuses])
  | on hgeneration => exact h.note (fun _ => rfl) (fun key => by simp [Entry.shows, Entry.refuses])
  | finished hr => exact h.finish hr
  | @loaded i r hr hphase henabled =>
    refine h.note (fun _ => rfl) fun key => ?_
    have hset := Pool.countP_set (Run.holds key) hr
      { r with phase := .claiming, config := currentSettings w.saved }
    simp [Run.holds, hphase] at hset
    simp [Entry.shows, Entry.refuses, move, hset]
  | @repeated i r clock hr hphase => exact (h.finish hr).prune clock
  | @claimed i r clock clock' now hr hphase hnew => exact (h.claim hr hphase hnew now).prune clock'
  | @passed i r hr hphase henabled hgeneration =>
    refine h.note (fun _ => rfl) fun key => ?_
    have hset := Pool.countP_set (Run.holds key) hr { r with phase := .asking }
    simp [Run.holds, hphase] at hset
    simp [Entry.shows, Entry.refuses, move, hset]
  | @asked i r hr hphase =>
    refine h.note (fun _ => rfl) fun key => ?_
    have hset := Pool.countP_set (Run.holds key) hr { r with phase := .waiting }
    simp [Run.holds, hphase] at hset
    simp only [Entry.shows, Entry.refuses, move, decide_eq_true_eq, Bool.false_eq_true, if_false]
    omega
  | @refused i r hr hphase =>
    refine h.note (fun _ => rfl) fun key => ?_
    have hset := Pool.countP_set (Run.holds key) hr { r with phase := .releasing }
    simp [Run.holds, hphase] at hset
    simp only [Entry.shows, Entry.refuses, move, decide_eq_true_eq, Bool.false_eq_true, if_false]
    omega
  | @released i r hr hphase => exact h.release hr hphase

theorem balanced_init {w : Worker} (h : w.Init) : w.Balanced := by
  subst h
  exact ⟨by simp, by simp, by simp, by simp⟩

/-- **One notification for each event.** In every run, the notifications of a key are one more at
most than those that the browser refused and the records that were pruned; and a record is pruned
only a retention period after its claim, or while as many later ones are left as the worker keeps.

**Proof sketch.** A claim adds a record, and only if there is none. The notification follows the
claim in the same delivery, so a second one needs a second claim, which needs the loss of the
record: by a refusal, or by pruning. -/
theorem shown_le_of_reachable {self : String} {w : Worker}
    (h : Transition.Reachable (step self) (fun _ _ => True) Init w) :
    (∀ key, w.log.countP (Entry.shows key) ≤
      1 + w.log.countP (Entry.refuses key) + w.log.countP (Entry.prunes key)) ∧
    ∀ r now (left : ℕ), .pruned r now left ∈ w.log →
      (∃ claimed, .claimed r.key claimed ∈ w.log ∧ r.expires = claimed + retentionMS) ∧
        (r.expires ≤ now ∨ maxEvents ≤ (left : ℤ)) := by
  have hbalanced : w.Balanced :=
    h.invariant (fun _ => balanced_init) fun _ _ _ hw _ hstep => hw.step hstep
  refine ⟨fun key => ?_, hbalanced.pruned⟩
  have := hbalanced.covered key
  have := hbalanced.single key
  omega

/-! ## A refused notification -/

/-- An alarm that is pushed twice. -/
def alarmKey : String := String.ofList (List.replicate 64 'a')

@[inherit_doc alarmKey]
def alarmValue : Json :=
  .obj [("schemaVersion", .num (.ofInt 1)), ("url", .str "/"), ("kind", .str "native"),
    ("source", .str "victron"), ("eventKey", .str alarmKey), ("title", .str "Low battery"),
    ("body", .str ""), ("sourceTimestampMs", .num (.ofInt 1700000000000)),
    ("observedAtMs", .num (.ofInt 1700000000000))]

/-- A message of a window of the dashboard. -/
def windowMessage (fields : List (String × Json)) : Action :=
  .message ⟨"https://dashboard.local", some "https://dashboard.local", .obj fields⟩

/-- A window switches notifications on. -/
def switchesOn : List Action :=
  [windowMessage [("type", .str "notification-settings-begin"), ("generation", .num (.ofInt 0))],
    windowMessage [("type", .str "notification-settings-set"), ("enabled", .bool true),
      ("generation", .num (.ofInt 1))]]

/-- Two deliveries of one event overlap, and the browser refuses the notification of the first. A
third one shows it. -/
def refusedOnce : List Action :=
  switchesOn ++ [.push alarmValue 1700000000500, .push alarmValue 1700000000500,
    .advance 0 .load, .advance 1 .load, .advance 0 (.claim fun _ => 1700000000500),
    .advance 1 (.claim fun _ => 1700000000500), .advance 0 .check, .advance 0 .ask,
    .advance 0 (.settle false), .advance 0 .release, .push alarmValue 1700000000600,
    .advance 2 .load, .advance 2 (.claim fun _ => 1700000000600), .advance 2 .check,
    .advance 2 .ask, .advance 2 (.settle true)]

theorem shown_le_of_reachable_refusedOnce : ∃ w,
    Transition.Reachable (step "https://dashboard.local") (fun _ _ => True) Init w ∧
      w.log.countP (Entry.shows alarmKey) = 2 ∧ w.log.countP (Entry.refuses alarmKey) = 1 ∧
      w.log.countP (Entry.shows alarmKey) ≤
        1 + w.log.countP (Entry.refuses alarmKey) + w.log.countP (Entry.prunes alarmKey) := by
  obtain ⟨w, hw, hp⟩ := Transition.Reachable.exists_of_run (step "https://dashboard.local")
    (fun _ _ => True) refusedOnce (fun w => decide (w.log.countP (Entry.shows alarmKey) = 2 ∧
      w.log.countP (Entry.refuses alarmKey) = 1)) init_empty
    (Transition.Allowed.of_forall (fun _ _ => trivial) _) (by decide +kernel)
  obtain ⟨hshows, hrefuses⟩ := of_decide_eq_true hp
  exact ⟨w, hw, hshows, hrefuses, (shown_le_of_reachable hw).1 alarmKey⟩

end Worker

end ServiceWorker
