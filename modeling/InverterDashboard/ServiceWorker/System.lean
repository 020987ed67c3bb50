import InverterDashboard.ServiceWorker.Event
import InverterDashboard.Lib.Trace
import InverterDashboard.Lib.Transition

set_option relaxedAutoImplicit false
set_option autoImplicit false

/-!
# The service worker

`internal/html/vue-ui/notifications-sw.js`. Push messages, the messages of the open windows and the
answers of the browser interleave: every transaction on the worker's database is one step, and so is
every call of the browser. A delivery may end at any point, because a transaction is aborted or
because the browser stops the worker.

The log notes what the properties are about, the latest first: the settings a delivery has read, its
notifications, the records that were pruned and the switching of the notifications.

## Main definitions

* `ServiceWorker.Settings`, `changeSettings` — the stored settings and their changes.
* `ServiceWorker.pruneEvents` — the records that are kept.
* `ServiceWorker.Worker`, `ServiceWorker.Worker.step` — the system.
* `ServiceWorker.switchedOn`, `ServiceWorker.offs` — the settings, read off the log.

## Main results

* `ServiceWorker.Worker.stepped_of_step` — what a step can do.
* `ServiceWorker.prune_spec` — which records are pruned.
-/

namespace ServiceWorker

open Go (Json)

/-! ## Settings -/

/-- The record `delivery` of the object store `settings`. -/
structure Settings where
  enabled : Bool
  generation : ℤ
  deriving DecidableEq

/-- `DEFAULT_SETTINGS`. -/
def defaultSettings : Settings := ⟨false, 0⟩

/-- The settings that `settings` reads off the stored record. -/
def currentSettings (saved : Option Settings) : Settings :=
  let saved := saved.getD defaultSettings
  ⟨saved.enabled, if |saved.generation| ≤ maxSafeInteger then saved.generation else 0⟩

/-- `typeof value === 'boolean'`, with the value. -/
def bool? : Json → Option Bool
  | .bool b => some b
  | _ => none

/-- `changeSettings`: the record that is put. -/
def changeSettings (request : Json) (current : Settings) : Option Settings :=
  let begins := stringMember request "type" = some "notification-settings-begin"
  let enabled := (member request "enabled").bind bool?
  if (begins ∨ enabled = some true) ∧
      integerMember request "generation" ≠ some current.generation then none
  else if begins ∨ enabled = some false then
    if maxSafeInteger ≤ current.generation then none
    else some ⟨false, current.generation + 1⟩
  else some ⟨true, current.generation⟩

/-- A message to the worker: the origins of the event and of the window that sent it, and its
data. -/
structure Message where
  origin : String
  source : Option String
  data : Json

/-- The listener of messages comes to `changeSettings`. -/
def Message.changes (self : String) (m : Message) : Bool :=
  decide (m.origin = self) && decide (m.source = some self) &&
    (decide (stringMember m.data "type" = some "notification-settings-begin") ||
      (decide (stringMember m.data "type" = some "notification-settings-set") &&
        ((member m.data "enabled").bind bool?).isSome))

/-! ## Records -/

/-- A record of the object store `events`. -/
structure Record where
  key : String
  expires : ℤ
  deriving DecidableEq

/-- The order of the index `expires`. -/
def Record.Before (a b : Record) : Prop :=
  a.expires < b.expires ∨ a.expires = b.expires ∧ a.key ≤ b.key

instance : DecidableRel Record.Before := fun a b =>
  inferInstanceAs (Decidable (a.expires < b.expires ∨ a.expires = b.expires ∧ a.key ≤ b.key))

/-! ## The log -/

/-- What happens to deliveries and settings. -/
inductive Entry where
  /-- A delivery has read settings of this generation. -/
  | loaded (run : ℕ) (generation : ℤ)
  /-- A key is claimed at a time. -/
  | claimed (key : String) (now : ℤ)
  /-- It has compared them with the settings after its claim. -/
  | passed (run : ℕ)
  /-- It calls `showNotification`. -/
  | shown (run : ℕ) (key : String)
  /-- The browser could not display the notification. -/
  | refused (key : String)
  /-- A record is deleted by `pruneEvents`, while so many later ones are left. -/
  | pruned (record : Record) (now : ℤ) (left : ℕ)
  /-- Notifications are switched off, or about to be changed. -/
  | off
  /-- Notifications are switched on by a window that has seen this generation. -/
  | on (generation : ℤ)
  deriving DecidableEq

namespace Entry

/-- A call of `showNotification` for a key. -/
def shows (key : String) : Entry → Bool
  | .shown _ k => k = key
  | _ => false

/-- A refused notification for a key. -/
def refuses (key : String) : Entry → Bool
  | .refused k => k = key
  | _ => false

/-- The loss of the record of a key. -/
def prunes (key : String) : Entry → Bool
  | .pruned r _ _ => r.key = key
  | _ => false

/-- How notifications are switched. -/
def switch? : Entry → Option Bool
  | .off => some false
  | .on _ => some true
  | _ => none

end Entry

/-- Notifications are switched on after what is in the log. -/
def switchedOn (log : List Entry) : Bool := (log.findSome? Entry.switch?).getD false

/-- How often notifications were switched off. -/
def offs (log : List Entry) : ℕ := log.countP (· = .off)

/-! ## Pruning -/

/-- The cursor of `pruneEvents`, over records in their order: what is left, and the entries of the
log. The readings of the clock are numbered. -/
def prune (clock : ℕ → ℤ) : ℕ → ℤ → List Record → List Record × List Entry
  | _, _, [] => ([], [])
  | t, excess, r :: rs =>
    if 0 < excess ∨ r.expires ≤ clock t then
      let p := prune clock (t + 1) (excess - 1) rs
      (p.1, p.2 ++ [.pruned r (clock t) rs.length])
    else (r :: rs, [])

/-- `pruneEvents`. -/
def pruneEvents (clock : ℕ → ℤ) (events : List Record) : List Record × List Entry :=
  prune clock 0 (max 0 (events.length - maxEvents)) (events.insertionSort Record.Before)

/-! ## The system -/

/-- Where a delivery is. -/
inductive Phase where
  /-- Before the transaction that reads the settings. -/
  | loading
  /-- Before the transaction of `claimEvent`. -/
  | claiming
  /-- Before the second reading of the settings. -/
  | checking
  /-- About to call `showNotification`. -/
  | asking
  /-- Waiting for the browser. -/
  | waiting
  /-- Before the transaction of `releaseClaim`. -/
  | releasing
  | ended
  deriving DecidableEq

/-- A call of `deliver` behind `normalizedEvent`. -/
structure Run where
  event : Event
  phase : Phase := .loading
  config : Settings := defaultSettings

/-- A delivery has claimed a key, and has no notification for it. -/
def Run.holds (key : String) (r : Run) : Bool :=
  decide (r.event.key = key) &&
    decide (r.phase = .checking ∨ r.phase = .asking ∨ r.phase = .releasing)

/-- The database of the worker, its deliveries, and the log. -/
structure Worker where
  saved : Option Settings := none
  events : List Record := []
  runs : List Run := []
  log : List Entry := []

/-- The steps of a delivery. -/
inductive Advance where
  /-- `settings()`. -/
  | load
  /-- `claimEvent(event)`, with the readings of the clock. -/
  | claim (clock : ℕ → ℤ)
  /-- `settings()` again. -/
  | check
  /-- The call of `showNotification`. -/
  | ask
  /-- Its promise is settled. -/
  | settle (displayed : Bool)
  /-- `releaseClaim(event.key)`. -/
  | release
  /-- A transaction is aborted, or the worker is stopped. -/
  | abort

/-- What happens to the worker. -/
inductive Action where
  /-- A push message with a value arrives at a time. -/
  | push (value : Json) (now : ℤ)
  /-- A message of a window. -/
  | message (m : Message)
  /-- A delivery goes on. -/
  | advance (i : ℕ) (a : Advance)

namespace Worker

/-- Delivery `i` moves on. -/
def move (w : Worker) (i : ℕ) (r : Run) : Worker := { w with runs := w.runs.set i r }

/-- Delivery `i` ends. -/
def finish (w : Worker) (i : ℕ) (r : Run) : Worker := w.move i { r with phase := .ended }

/-- An entry of the log. -/
def note (w : Worker) (e : Entry) : Worker := { w with log := e :: w.log }

/-- The transaction of `changeSettings`. -/
def configure (w : Worker) (request : Json) : Worker :=
  match changeSettings request (currentSettings w.saved) with
  | none => w
  | some next =>
    { w with saved := some next }.note (if next.enabled then .on next.generation else .off)

/-- A step of delivery `i`. -/
def advance (w : Worker) (i : ℕ) (r : Run) : Advance → Option Worker
  | .load =>
    if r.phase = .loading then
      let config := currentSettings w.saved
      if config.enabled then
        some ((w.move i { r with phase := .claiming, config := config }).note
          (.loaded i config.generation))
      else some (w.finish i r)
    else none
  | .claim clock =>
    if r.phase = .claiming then
      if w.events.any (·.key = r.event.key) then
        let p := pruneEvents clock w.events
        some { w.finish i r with events := p.1, log := p.2 ++ w.log }
      else
        let p := pruneEvents (fun t => clock (t + 1))
          (w.events ++ [⟨r.event.key, clock 0 + retentionMS⟩])
        some { w.move i { r with phase := .checking } with
          events := p.1
          log := p.2 ++ .claimed r.event.key (clock 0) :: w.log }
    else none
  | .check =>
    if r.phase = .checking then
      let current := currentSettings w.saved
      if current.enabled = true ∧ current.generation = r.config.generation then
        some ((w.move i { r with phase := .asking }).note (.passed i))
      else some (w.finish i r)
    else none
  | .ask =>
    if r.phase = .asking then
      some ((w.move i { r with phase := .waiting }).note (.shown i r.event.key))
    else none
  | .settle displayed =>
    if r.phase = .waiting then
      if displayed then some (w.finish i r)
      else some ((w.move i { r with phase := .releasing }).note (.refused r.event.key))
    else none
  | .release =>
    if r.phase = .releasing then
      some { w.finish i r with events := w.events.filter fun e => e.key ≠ r.event.key }
    else none
  | .abort => if r.phase = .ended then none else some (w.finish i r)

/-- One step of a worker whose scope has the origin `self`. -/
def step (self : String) (w : Worker) : Action → Option Worker
  | .push value now =>
    match normalizedEvent value now with
    | none => some w
    | some e => some { w with runs := w.runs ++ [{ event := e }] }
  | .message m => some (if m.changes self then w.configure m.data else w)
  | .advance i a => (w.runs[i]?).bind fun r => w.advance i r a

/-- A worker whose database was just created. -/
def Init (w : Worker) : Prop := w = {}

theorem init_empty : Init {} := rfl

end Worker

/-! ## What is pruned -/

/-- The entry of a record that is expired, or that has enough later ones behind it. -/
def Entry.Pruned (events : List Record) (e : Entry) : Prop :=
  ∃ record ∈ events, ∃ now left, e = .pruned record now left ∧
    (record.expires ≤ now ∨ maxEvents ≤ (left : ℤ))

theorem Entry.Pruned.mono {events events' : List Record} {e : Entry} (h : e.Pruned events)
    (hsub : events ⊆ events') : e.Pruned events' := by
  obtain ⟨r, hr, hrest⟩ := h
  exact ⟨r, hsub hr, hrest⟩

theorem prune_sublist (clock : ℕ → ℤ) (t : ℕ) (excess : ℤ) (records : List Record) :
    (prune clock t excess records).1.Sublist records := by
  induction records generalizing t excess with
  | nil => simp [prune]
  | cons r rs ih =>
    unfold prune
    split_ifs
    · exact (ih (t + 1) (excess - 1)).cons r
    · exact List.Sublist.refl _

/-- Every record is kept or noted. -/
theorem prune_count (clock : ℕ → ℤ) (t : ℕ) (excess : ℤ) (records : List Record) (key : String) :
    (prune clock t excess records).2.countP (Entry.prunes key) +
      (prune clock t excess records).1.countP (fun r => r.key = key) =
    records.countP (fun r => r.key = key) := by
  induction records generalizing t excess with
  | nil => simp [prune]
  | cons r rs ih =>
    unfold prune
    split_ifs
    · have := ih (t + 1) (excess - 1)
      simp only [List.countP_append, List.countP_cons, List.countP_nil, Entry.prunes,
        decide_eq_true_eq]
      omega
    · simp

/-- The reason why a record is given up.

**Proof sketch.** By induction on the records that are left. The excess counts down with them, so
as long as it is positive, it says how many more there are than the worker keeps. -/
theorem prune_reason (clock : ℕ → ℤ) (t : ℕ) {excess : ℤ} {records : List Record}
    (h : 0 < excess → excess ≤ records.length - maxEvents) :
    ∀ e ∈ (prune clock t excess records).2, e.Pruned records := by
  induction records generalizing t excess with
  | nil => simp [prune]
  | cons r rs ih =>
    rw [List.length_cons] at h
    unfold prune
    split_ifs with hcut
    · intro e he
      rcases List.mem_append.mp he with he | he
      · refine (ih (t + 1) (fun hpos => ?_) e he).mono (List.subset_cons_self r rs)
        have := h (by omega)
        push_cast at this
        omega
      · obtain rfl := List.mem_singleton.mp he
        refine ⟨r, List.mem_cons_self, clock t, rs.length, rfl, ?_⟩
        rcases hcut with hpos | hexpired
        · have := h hpos
          push_cast at this
          exact Or.inr (by omega)
        · exact Or.inl hexpired
    · simp

/-- What `pruneEvents` does to the records. -/
theorem prune_spec (clock : ℕ → ℤ) (events : List Record) :
    (∀ r ∈ (pruneEvents clock events).1, r ∈ events) ∧
      (∀ key, (pruneEvents clock events).2.countP (Entry.prunes key) +
        (pruneEvents clock events).1.countP (fun r => r.key = key) =
          events.countP (fun r => r.key = key)) ∧
      ∀ e ∈ (pruneEvents clock events).2, e.Pruned events := by
  have hperm : (events.insertionSort Record.Before).Perm events := List.perm_insertionSort _ events
  refine ⟨fun r hr => ?_, fun key => ?_, fun e he => ?_⟩
  · exact hperm.subset ((prune_sublist clock 0 _ _).subset hr)
  · unfold pruneEvents
    rw [prune_count, hperm.countP_eq]
  · refine (prune_reason clock 0 (fun hpos => ?_) e he).mono hperm.subset
    rw [hperm.length_eq]
    omega

/-- A pruned record is no notification, no refusal and no switching. -/
theorem Entry.Pruned.other {events : List Record} {e : Entry} (h : e.Pruned events) :
    (∀ key, e.shows key = false ∧ e.refuses key = false) ∧ e.switch? = none ∧ e ≠ .off := by
  obtain ⟨r, -, now, left, rfl, -⟩ := h
  exact ⟨fun _ => ⟨rfl, rfl⟩, rfl, nofun⟩

/-- What is pruned does not switch notifications. -/
theorem switchedOn_pruned {events : List Record} {es log : List Entry}
    (h : ∀ e ∈ es, e.Pruned events) :
    switchedOn (es ++ log) = switchedOn log ∧ offs (es ++ log) = offs log := by
  have hnone : es.findSome? Entry.switch? = none :=
    List.findSome?_eq_none_iff.mpr fun e he => (h e he).other.2.1
  have hzero : es.countP (· = .off) = 0 :=
    List.countP_eq_zero.mpr fun e he => by simpa using (h e he).other.2.2
  constructor
  · unfold switchedOn
    rw [List.findSome?_append, hnone, Option.none_or]
  · unfold offs
    rw [List.countP_append, hzero, Nat.zero_add]

/-! ## What a step does -/

namespace Worker

/-- What a step can do. -/
inductive Stepped (w : Worker) : Action → Worker → Prop
  /-- The value is no event, or the settings are not changed. -/
  | same {a : Action} : Stepped w a w
  /-- A delivery begins. -/
  | arrived {value : Json} {now : ℤ} {e : Event} : normalizedEvent value now = some e →
      Stepped w (.push value now) { w with runs := w.runs ++ [{ event := e }] }
  /-- Notifications are switched off. -/
  | off {m : Message} : (currentSettings w.saved).generation < maxSafeInteger →
      Stepped w (.message m)
        ({ w with saved := some ⟨false, (currentSettings w.saved).generation + 1⟩ }.note .off)
  /-- Notifications are switched on by a window that names the present generation. -/
  | on {m : Message} : integerMember m.data "generation" =
        some (currentSettings w.saved).generation →
      Stepped w (.message m)
        ({ w with saved := some ⟨true, (currentSettings w.saved).generation⟩ }.note
          (.on (currentSettings w.saved).generation))
  /-- A delivery ends without a notification, or after one. -/
  | finished {i : ℕ} {r : Run} {a : Advance} : w.runs[i]? = some r →
      Stepped w (.advance i a) (w.finish i r)
  /-- A delivery has read that notifications are on. -/
  | loaded {i : ℕ} {r : Run} : w.runs[i]? = some r → r.phase = .loading →
      (currentSettings w.saved).enabled = true →
      Stepped w (.advance i .load)
        ((w.move i { r with phase := .claiming, config := currentSettings w.saved }).note
          (.loaded i (currentSettings w.saved).generation))
  /-- The key was claimed before. -/
  | repeated {i : ℕ} {r : Run} {clock : ℕ → ℤ} : w.runs[i]? = some r → r.phase = .claiming →
      Stepped w (.advance i (.claim clock))
        { w.finish i r with
          events := (pruneEvents clock w.events).1
          log := (pruneEvents clock w.events).2 ++ w.log }
  /-- The key is claimed. -/
  | claimed {i : ℕ} {r : Run} {clock clock' : ℕ → ℤ} {now : ℤ} : w.runs[i]? = some r →
      r.phase = .claiming → (∀ e ∈ w.events, e.key ≠ r.event.key) →
      Stepped w (.advance i (.claim clock))
        { w.move i { r with phase := .checking } with
          events := (pruneEvents clock' (w.events ++ [⟨r.event.key, now + retentionMS⟩])).1
          log := (pruneEvents clock' (w.events ++ [⟨r.event.key, now + retentionMS⟩])).2 ++
            .claimed r.event.key now :: w.log }
  /-- The settings are on, and of the generation read before. -/
  | passed {i : ℕ} {r : Run} : w.runs[i]? = some r → r.phase = .checking →
      (currentSettings w.saved).enabled = true →
      (currentSettings w.saved).generation = r.config.generation →
      Stepped w (.advance i .check) ((w.move i { r with phase := .asking }).note (.passed i))
  /-- `showNotification` is called. -/
  | asked {i : ℕ} {r : Run} : w.runs[i]? = some r → r.phase = .asking →
      Stepped w (.advance i .ask)
        ((w.move i { r with phase := .waiting }).note (.shown i r.event.key))
  /-- The browser could not display the notification. -/
  | refused {i : ℕ} {r : Run} : w.runs[i]? = some r → r.phase = .waiting →
      Stepped w (.advance i (.settle false))
        ((w.move i { r with phase := .releasing }).note (.refused r.event.key))
  /-- The claim is given back. -/
  | released {i : ℕ} {r : Run} : w.runs[i]? = some r → r.phase = .releasing →
      Stepped w (.advance i .release)
        { w.finish i r with events := w.events.filter fun e => e.key ≠ r.event.key }

/-- A change of the settings. -/
theorem configure_cases (w : Worker) (request : Json) :
    w.configure request = w ∨
    ((currentSettings w.saved).generation < maxSafeInteger ∧ w.configure request =
      { w with saved := some ⟨false, (currentSettings w.saved).generation + 1⟩ }.note .off) ∨
    (integerMember request "generation" = some (currentSettings w.saved).generation ∧
      w.configure request =
        { w with saved := some ⟨true, (currentSettings w.saved).generation⟩ }.note
          (.on (currentSettings w.saved).generation)) ∨
    (stringMember request "type" ≠ some "notification-settings-begin" ∧
      (member request "enabled").bind bool? = none) := by
  unfold configure changeSettings
  dsimp only
  split_ifs with hstale hoff hmax
  · exact Or.inl rfl
  · exact Or.inl rfl
  · exact Or.inr (Or.inl ⟨not_le.mp hmax, rfl⟩)
  · rw [not_or] at hoff
    cases henabled : (member request "enabled").bind bool? with
    | none => exact Or.inr (Or.inr (Or.inr ⟨hoff.1, rfl⟩))
    | some b =>
      cases b with
      | false => exact absurd henabled hoff.2
      | true =>
        refine Or.inr (Or.inr (Or.inl ⟨?_, rfl⟩))
        by_contra hne
        exact hstale ⟨Or.inr henabled, hne⟩

/-- A step of the system is one of these. -/
theorem stepped_of_step {self : String} {w w' : Worker} {a : Action} (h : w.step self a = some w') :
    Stepped w a w' := by
  cases a with
  | push value now =>
    unfold step at h
    dsimp only at h
    cases hevent : normalizedEvent value now with
    | none =>
      rw [hevent] at h
      obtain rfl := Option.some.inj h
      exact .same
    | some e =>
      rw [hevent] at h
      obtain rfl := Option.some.inj h
      exact .arrived hevent
  | message m =>
    obtain rfl := Option.some.inj h
    split_ifs with hchanges
    · rcases configure_cases w m.data with heq | ⟨hlt, heq⟩ | ⟨hgen, heq⟩ | ⟨htype, hnone⟩
      · rw [heq]
        exact .same
      · rw [heq]
        exact .off hlt
      · rw [heq]
        exact .on hgen
      · simp [Message.changes, htype, hnone] at hchanges
    · exact .same
  | advance i a =>
    obtain ⟨r, hr, h⟩ := Option.bind_eq_some_iff.mp h
    cases a with
    | load =>
      unfold advance at h
      dsimp only at h
      split_ifs at h with hphase henabled
      · obtain rfl := Option.some.inj h
        exact .loaded hr hphase henabled
      · obtain rfl := Option.some.inj h
        exact .finished hr
    | claim clock =>
      unfold advance at h
      dsimp only at h
      split_ifs at h with hphase hclaimed
      · obtain rfl := Option.some.inj h
        exact .repeated hr hphase
      · obtain rfl := Option.some.inj h
        refine .claimed hr hphase fun e he heq => hclaimed ?_
        exact List.any_eq_true.mpr ⟨e, he, decide_eq_true heq⟩
    | check =>
      unfold advance at h
      dsimp only at h
      split_ifs at h with hphase hcurrent
      · obtain rfl := Option.some.inj h
        exact .passed hr hphase hcurrent.1 hcurrent.2
      · obtain rfl := Option.some.inj h
        exact .finished hr
    | ask =>
      unfold advance at h
      dsimp only at h
      split_ifs at h with hphase
      obtain rfl := Option.some.inj h
      exact .asked hr hphase
    | settle displayed =>
      unfold advance at h
      dsimp only at h
      split_ifs at h with hphase hdisplayed
      · obtain rfl := Option.some.inj h
        exact .finished hr
      · obtain rfl := Option.some.inj h
        rw [Bool.not_eq_true] at hdisplayed
        subst hdisplayed
        exact .refused hr hphase
    | release =>
      unfold advance at h
      dsimp only at h
      split_ifs at h with hphase
      obtain rfl := Option.some.inj h
      exact .released hr hphase
    | abort =>
      unfold advance at h
      dsimp only at h
      split_ifs at h with hphase
      obtain rfl := Option.some.inj h
      exact .finished hr

end Worker

end ServiceWorker
