import InverterDashboard.Gateway.Telemetry
import InverterDashboard.Lib.Trace
import InverterDashboard.Lib.Transition

set_option relaxedAutoImplicit false
set_option autoImplicit false

/-!
# Acknowledgement of an override

A call of `PostCommand` of `internal/gateway/client.go` for the command `setpoint_override`, step
by step: the snapshot it validates against, the one POST, and `awaitOverride` with its polling
loop. The gateway may answer what it likes. Between any two steps the caller may cancel, `Stop` may
cancel the client or return, the deadline may end, and another thread may hold `commandApplyMu`.
`Stop` returns when it has been inside `commandApplyMu` behind the cancellation. The clock
is in nanoseconds, and the readings of the wall clock are left open. The contexts are those of the
standard library, which end with their parents; only the function that `AfterFunc` runs for the
client's context comes later.

## Main definitions

* `Dashboard.Gateway.Advertises`, `Dashboard.Gateway.Confirms` — what a snapshot says about the
  override.
* `Dashboard.Gateway.OverridePC`, `Dashboard.Gateway.OverrideCall` — where the call stands.
* `Dashboard.Gateway.OverrideCall.step` — the system.
* `Dashboard.Gateway.Acknowledged` — what a nil result relies on.

## Main results

* `Dashboard.Gateway.confirms_of_acknowledged` — what the acknowledgement of a mapped state says
  about the snapshot.
* `Dashboard.Gateway.OverrideCall.inv_step` — what every step keeps.
* `Dashboard.Gateway.OverrideCall.override_sound` — one POST, behind a supporting snapshot, and
  success only behind a confirmation that was applied.
-/

namespace Dashboard

open Go

namespace Gateway

/-! ## What a snapshot says -/

/-- The raw status of the override in a snapshot. -/
def Snapshot.overrideRaw (snap : Snapshot) : Any :=
  (entry (snap.inverter.getD []) "setpoint_override").getD .nil

/-- The snapshot has a capability. -/
def Snapshot.capable (snap : Snapshot) (name : String) : Bool :=
  (snap.capabilities.find name).getD false

/-- The snapshot advertises the capability and a status that can be parsed. -/
def Advertises (snap : Snapshot) : Prop :=
  snap.capable "setpoint_override" = true ∧ (parseOverrideStatus snap.overrideRaw).isSome = true

/-- The snapshot carries the request of a payload, no error, and the value of the payload. -/
def Confirms (snap : Snapshot) (payload : Any) : Prop :=
  ∃ status id value, parseOverrideStatus snap.overrideRaw = some status ∧
    (entry (payload.object?.getD []) "request_id").bind Any.string? = some id ∧
    (entry (payload.object?.getD []) "value").bind int32Value = some value ∧
    status.requestID = some id ∧ status.lastError = none ∧ status.value = value

/-- A conditional update of another member. -/
theorem field_ite_set {f g : Field} (h : g ≠ f) {c : Prop} [Decidable c] {s : State}
    {v : f.type.denote} : (if c then s.set f v else s).field g = s.field g := by
  split
  · exact State.set_field_ne _ h _
  · rfl

/-- The controller section of a capable snapshot has the parsed status. -/
theorem setpointOverride_of_applyInverter {snap : Snapshot} {now : Time} {st st' : State}
    (h : applyInverter snap now st = some st') (hcap : snap.capable "setpoint_override" = true) :
    st'.field .setpointOverride = parseOverrideStatus snap.overrideRaw := by
  have hcap' : (snap.capabilities.find "setpoint_override").getD false = true := hcap
  rw [applyInverter] at h
  obtain ⟨st₁, -, h⟩ := Option.bind_eq_some_iff.mp h
  simp only [hcap', if_true, Option.pure_def, Option.some.injEq] at h
  subst h
  -- Every later update is of another member.
  rw [field_ite_set (by decide)]
  have hreceipt : ∀ s : State, s.field .setpointOverride = parseOverrideStatus snap.overrideRaw →
      ∀ (c c' : Bool) (v v' : Option F64),
        (if c = true then (if c' = true then s.set .setpointOverrideObservedAt v else s).set
            .electricityTariffObservedAt v'
          else if c' = true then s.set .setpointOverrideObservedAt v else s).field
            .setpointOverride = parseOverrideStatus snap.overrideRaw := by
    intro s hs c c' v v'
    rw [field_ite_set (by decide), field_ite_set (by decide), hs]
  split
  · rw [State.set_field_ne _ (by decide)]
    exact hreceipt _ (State.set_field_self _ _ _) _ _ _ _
  · exact hreceipt _ (State.set_field_self _ _ _) _ _ _ _

/-- A ready state of a capable snapshot has the status of the snapshot.

**Proof sketch.** Without an inverter section there is no verdict on the inverter, so the state is
not ready. -/
theorem status_of_ready {r : NativeScalars} {snap : Snapshot} {opt : MapOptions}
    {now at' : Time} {st : State} {payload : Any}
    (hst : snapshotToState r snap opt now = some st)
    (hcap : snap.capable "setpoint_override" = true)
    (hready : controllerCommandReady st .setpointOverride payload at' = true) :
    st.field .setpointOverride = parseOverrideStatus snap.overrideRaw ∧
      (st.field .setpointOverride).isSome = true := by
  simp only [controllerCommandReady, Bool.and_eq_true, beq_iff_eq] at hready
  obtain ⟨hinv, hsome, -⟩ := hready
  refine ⟨?_, hsome⟩
  by_cases hsec : snap.TelemetryOnly
  · obtain ⟨st', hst', hblank⟩ := controllerBlank_of_telemetryOnly r opt now hsec
    rw [hst] at hst'
    obtain rfl := Option.some.inj hst'
    rw [hblank.omitted] at hinv
    cases hinv
  · rw [snapshotToState] at hst
    obtain ⟨st₀, -, hst⟩ := Option.bind_eq_some_iff.mp hst
    have hpresent : (snap.inverterPresent || snap.inverter.isSome) = true := by
      by_contra hno
      simp only [Bool.or_eq_true, not_or, Bool.not_eq_true, Option.isSome_eq_false_iff,
        Option.isNone_iff_eq_none] at hno
      exact hsec hno
    simp only [hpresent, if_true] at hst
    exact setpointOverride_of_applyInverter hst hcap

/-- A snapshot whose state is ready advertises the override. -/
theorem advertises_of_ready {r : NativeScalars} {snap : Snapshot} {opt : MapOptions}
    {now at' : Time} {st : State} {payload : Any}
    (hst : snapshotToState r snap opt now = some st)
    (hcap : snap.capable "setpoint_override" = true)
    (hready : controllerCommandReady st .setpointOverride payload at' = true) :
    Advertises snap := by
  obtain ⟨heq, hsome⟩ := status_of_ready hst hcap hready
  exact ⟨hcap, heq ▸ hsome⟩

/-- The members of a valid override. -/
theorem members_of_validateOverride {payload : Any} (h : validateOverride payload = true) :
    ∃ value, (entry (payload.object?.getD []) "value").bind int32Value = some value := by
  unfold validateOverride at h
  cases hobj : payload.object? with
  | none => simp [hobj] at h
  | some m =>
    simp only [hobj, Bool.and_eq_true] at h
    exact Option.isSome_iff_exists.mp h.1.2

/-- **Acknowledgement.** When the state of a capable snapshot is ready and acknowledges a valid
override, the snapshot carries its request, no error and its value. -/
theorem confirms_of_acknowledged {r : NativeScalars} {snap : Snapshot} {opt : MapOptions}
    {now at' : Time} {st : State} {payload : Any} (hvalid : validateOverride payload = true)
    (hst : snapshotToState r snap opt now = some st)
    (hcap : snap.capable "setpoint_override" = true)
    (hready : controllerCommandReady st .setpointOverride payload at' = true)
    (hack : overrideAcknowledged (st.field .setpointOverride) payload = .confirmed) :
    Confirms snap payload := by
  obtain ⟨heq, hsome⟩ := status_of_ready hst hcap hready
  obtain ⟨value, hvalue⟩ := members_of_validateOverride hvalid
  obtain ⟨status, hstatus⟩ := Option.isSome_iff_exists.mp hsome
  rw [hstatus] at hack heq
  unfold overrideAcknowledged at hack
  simp only at hack
  split_ifs at hack with hid herr hval
  obtain ⟨hidSome, hidEq⟩ := not_or.mp hid
  obtain ⟨id, hid⟩ : ∃ id, status.requestID = some id :=
    Option.ne_none_iff_exists'.mp fun hnone => hidSome (by rw [hnone]; rfl)
  refine ⟨status, id, value, heq.symm, ?_, hvalue, hid, ?_, ?_⟩
  · rw [← not_ne_iff.mp hidEq, hid]
  · exact Option.not_isSome_iff_eq_none.mp herr
  · rw [hvalue] at hval
    exact hval.symm

/-! ## The call -/

/-- Five seconds. -/
def commandTimeout : ℕ := 5000000000

/-- What has happened around a call. -/
inductive OverrideEntry where
  /-- `FetchSnapshot` returned a snapshot. -/
  | fetched (snap : Snapshot)
  /-- The POST was handed to the HTTP client. -/
  | posted
  /-- The POST was answered. -/
  | answered (status : ℕ)
  /-- The caller's context ended. -/
  | callerEnded
  /-- The deadline of the call ended. -/
  | expired
  /-- `Stop` cancelled the client. -/
  | stopped
  /-- `Stop` returned. -/
  | stopReturned
  /-- The command's context was found alive inside `commandApplyMu`. -/
  | admitted
  /-- A state was passed to `apply`. -/
  | applied (st : State)
  /-- The call returned, with a nil error or another one. -/
  | returned (ok : Bool)

/-- Whether a context ended. -/
def OverrideEntry.isEnd : OverrideEntry → Bool
  | .callerEnded | .expired | .stopped => true
  | _ => false

/-- Whether the command's context ended on its own: by its parent or its deadline. -/
def OverrideEntry.isOwnEnd : OverrideEntry → Bool
  | .callerEnded | .expired => true
  | _ => false

/-- Whether it is the POST. -/
def OverrideEntry.isPost : OverrideEntry → Bool
  | .posted => true
  | _ => false

/-- Where the call stands. -/
inductive OverridePC where
  /-- Before the command is looked at. -/
  | called
  /-- The deadline runs, before the client's context is checked. -/
  | starting
  /-- In `FetchSnapshot` of `validateCommandSnapshot`. -/
  | validating
  /-- The snapshot was fetched, before it is looked at. -/
  | validated (snap : Snapshot)
  /-- The snapshot supports the command, before the client's context is checked. -/
  | supported
  /-- Before the request is built. -/
  | encoding
  /-- Before the answer to the POST. -/
  | posting
  /-- The POST was answered. -/
  | answered (status : ℕ)
  /-- In `awaitOverride`, before the command's context is checked. -/
  | awaiting
  /-- The command's context was checked, before the client's is. -/
  | awaitingClient
  /-- In `FetchSnapshot`. -/
  | fetching
  /-- Behind `FetchSnapshot`, before the command's context is checked. -/
  | fetched (snap : Snapshot)
  /-- The command's context was checked, before the client's is. -/
  | fetchedClient (snap : Snapshot)
  /-- Both contexts were checked, before the snapshot is looked at. -/
  | checked (snap : Snapshot)
  /-- The snapshot does not acknowledge the override yet. -/
  | ticking
  /-- In `applyOverride`, before `commandApplyMu` is taken. -/
  | confirmed (st : State)
  /-- Inside `commandApplyMu`, before the command's context is checked. -/
  | locked (st : State)
  /-- The command's context was checked, before the client's is. -/
  | lockedClient (st : State)
  /-- Both contexts were checked, before `apply`. -/
  | ready (st : State)
  /-- In `apply`. -/
  | applying
  /-- Inside `commandApplyMu`, about to leave with a result. -/
  | unlocking (ok : Bool)
  /-- Returned. -/
  | returned (ok : Bool)

/-- Whether the call is inside `commandApplyMu`. -/
def OverridePC.holds : OverridePC → Bool
  | .locked _ | .lockedClient _ | .ready _ | .applying | .unlocking _ => true
  | _ => false

/-- Whether the call is about to call `apply`. -/
def OverridePC.live : OverridePC → Bool
  | .ready _ => true
  | _ => false

/-- `apply` is called inside `commandApplyMu`. -/
theorem OverridePC.holds_of_live {pc : OverridePC} (h : pc.live = true) : pc.holds = true := by
  cases pc <;> first
    | rfl
    | cases h

/-- Who holds `commandApplyMu`: this call, or `Stop` or another command. -/
inductive ApplyHolder where
  | call
  | other
  deriving DecidableEq

/-- What a run of the call does not change: the payload, whether `apply` is set, and how snapshots
are mapped. -/
structure OverrideConfig where
  payload : Any
  hasApply : Bool
  scalars : NativeScalars
  mapOptions : MapOptions

/-- The clock, the contexts, the lock, the call and what has happened, the latest first. -/
structure OverrideCall where
  now : ℕ := 0
  deadline : Option ℕ := none
  callerEnded : Bool := false
  /-- The client's context has ended. -/
  cancelled : Bool := false
  /-- `AfterFunc` has cancelled the command's context. -/
  relayed : Bool := false
  commandApplyMu : Option ApplyHolder := none
  pc : OverridePC := .called
  log : List OverrideEntry := []

/-- What the call receives from outside at a step. -/
inductive OverrideInput where
  /-- Nothing. -/
  | none
  /-- The outcome of `FetchSnapshot`. -/
  | snapshot (answer : Option Snapshot)
  /-- Whether the request could be built. -/
  | built (ok : Bool)
  /-- The status of the answer to the POST, or its failure. -/
  | status (answer : Option ℕ)
  /-- The readings of the wall clock for `SnapshotToState` and for the freshness check. -/
  | readings (mapped checked : Time)

/-- What can happen. -/
inductive OverrideEvent where
  /-- Time passes. -/
  | advance (d : ℕ)
  /-- The caller's context ends. -/
  | endCaller
  /-- `Stop` cancels the client. -/
  | stop
  /-- `Stop` has been inside `commandApplyMu` and returns. -/
  | stopReturn
  /-- The function of `AfterFunc` runs. -/
  | relay
  /-- Another thread takes `commandApplyMu`. -/
  | lockOther
  /-- The other thread leaves it. -/
  | unlockOther
  /-- The call takes its next step. -/
  | call (input : OverrideInput)

namespace OverrideCall

/-- Something is added to the log. -/
def note (s : OverrideCall) (e : OverrideEntry) : OverrideCall := { s with log := e :: s.log }

/-- The call moves on. -/
def moveTo (s : OverrideCall) (pc : OverridePC) : OverrideCall := { s with pc := pc }

/-- The call returns. -/
def finish (s : OverrideCall) (ok : Bool) : OverrideCall :=
  (s.note (.returned ok)).moveTo (.returned ok)

/-- The deadline has ended. -/
def isExpired (s : OverrideCall) : Bool := s.deadline.any (· ≤ s.now)

/-- `ctx.Err() != nil` for the command's context. -/
def ctxEnded (s : OverrideCall) : Bool := s.callerEnded || s.relayed || s.isExpired

/-- Time passes, maybe over the deadline. -/
def advance (s : OverrideCall) (d : ℕ) : OverrideCall :=
  let s' := { s with now := s.now + d }
  if !s.isExpired && s'.isExpired then s'.note .expired else s'

/-- `Capabilities["setpoint_override"]` and `ControllerCommandReady`. -/
def supports (cfg : OverrideConfig) (snap : Snapshot) (st : State) (now : Time) : Bool :=
  snap.capable "setpoint_override" && controllerCommandReady st .setpointOverride cfg.payload now

/-- The next step of `PostCommand`, `validateCommandSnapshot`, `awaitOverride` and
`applyOverride`. -/
def stepCall (cfg : OverrideConfig) (s : OverrideCall) (input : OverrideInput) :
    OverridePC → Option OverrideCall
  | .called =>
    if validateOverride cfg.payload then
      some { s with deadline := some (s.now + commandTimeout), pc := .starting }
    else some (s.finish false)
  | .starting => some (if s.cancelled then s.finish false else s.moveTo .validating)
  | .validating =>
    match input with
    | .snapshot (some snap) => some ((s.note (.fetched snap)).moveTo (.validated snap))
    | .snapshot none => some (s.finish false)
    | _ => none
  | .validated snap =>
    match input with
    | .readings mapped checked =>
      (snapshotToState cfg.scalars snap cfg.mapOptions mapped).map fun st =>
        if supports cfg snap st checked then s.moveTo .supported else s.finish false
    | _ => none
  | .supported => some (if s.cancelled then s.finish false else s.moveTo .encoding)
  | .encoding =>
    match input with
    | .built ok => some (if ok then (s.note .posted).moveTo .posting else s.finish false)
    | _ => none
  | .posting =>
    match input with
    | .status (some code) => some ((s.note (.answered code)).moveTo (.answered code))
    | .status none => some (s.finish false)
    | _ => none
  | .answered code =>
    some (if code < 200 || code ≥ 300 then s.finish false else s.moveTo .awaiting)
  | .awaiting => some (if s.ctxEnded then s.finish false else s.moveTo .awaitingClient)
  | .awaitingClient => some (if s.cancelled then s.finish false else s.moveTo .fetching)
  | .fetching =>
    match input with
    | .snapshot (some snap) => some ((s.note (.fetched snap)).moveTo (.fetched snap))
    | .snapshot none => some (s.finish false)
    | _ => none
  | .fetched snap => some (if s.ctxEnded then s.finish false else s.moveTo (.fetchedClient snap))
  | .fetchedClient snap => some (if s.cancelled then s.finish false else s.moveTo (.checked snap))
  | .checked snap =>
    match input with
    | .readings mapped checked =>
      (snapshotToState cfg.scalars snap cfg.mapOptions mapped).map fun st =>
        if supports cfg snap st checked then
          match overrideAcknowledged (st.field .setpointOverride) cfg.payload with
          | .rejected => s.finish false
          | .confirmed => s.moveTo (.confirmed st)
          | .pending => s.moveTo .ticking
        else s.finish false
    | _ => none
  | .ticking =>
    -- The `select` may take the tick although the context has ended.
    match input with
    | .none => some (s.moveTo .awaiting)
    | _ => if s.ctxEnded then some (s.finish false) else none
  | .confirmed st =>
    if s.commandApplyMu = none then
      some ({ s with commandApplyMu := some .call }.moveTo (.locked st))
    else none
  | .locked st =>
    some (if s.ctxEnded then s.moveTo (.unlocking false)
      else (s.note .admitted).moveTo (.lockedClient st))
  | .lockedClient st => some (s.moveTo (if s.cancelled then .unlocking false else .ready st))
  | .ready st =>
    some (if cfg.hasApply then (s.note (.applied st)).moveTo .applying
      else s.moveTo (.unlocking true))
  | .applying => some (s.moveTo (.unlocking true))
  | .unlocking ok => some ({ s with commandApplyMu := none }.finish ok)
  | .returned _ => none

/-- One step. -/
def step (cfg : OverrideConfig) (s : OverrideCall) : OverrideEvent → Option OverrideCall
  | .advance d => some (s.advance d)
  | .endCaller =>
    if s.callerEnded then none else some ({ s with callerEnded := true }.note .callerEnded)
  | .stop => if s.cancelled then none else some ({ s with cancelled := true }.note .stopped)
  | .stopReturn =>
    if s.cancelled = true ∧ s.commandApplyMu = none then some (s.note .stopReturned) else none
  | .relay => if s.cancelled then some { s with relayed := true } else none
  | .lockOther =>
    if s.commandApplyMu = none then some { s with commandApplyMu := some .other } else none
  | .unlockOther =>
    if s.commandApplyMu = some .other then some { s with commandApplyMu := none } else none
  | .call input => s.stepCall cfg input s.pc

/-- Before the call: no context has ended yet. -/
def Init (s : OverrideCall) : Prop := s = { now := s.now }

end OverrideCall

/-! ## What the call relies on -/

/-- A supporting snapshot was fetched. -/
def Supported (log : List OverrideEntry) : Prop :=
  ∃ snap, OverrideEntry.fetched snap ∈ log ∧ Advertises snap

/-- The POST was answered with success. -/
def Answered (log : List OverrideEntry) : Prop :=
  ∃ code, 200 ≤ code ∧ code < 300 ∧ OverrideEntry.answered code ∈ log

/-- Behind that answer a snapshot was fetched. -/
def Carried (snap : Snapshot) : List OverrideEntry → Prop := Trace.Added (.fetched snap) Answered

/-- Behind that answer a snapshot was fetched that confirms the payload and maps to a state. -/
def Confirmed (cfg : OverrideConfig) (st : State) (log : List OverrideEntry) : Prop :=
  ∃ snap now, snapshotToState cfg.scalars snap cfg.mapOptions now = some st ∧
    Confirms snap cfg.payload ∧ Carried snap log

/-- When that had happened, and none of `ends` yet, the call was admitted to `apply`. -/
def AdmittedBefore (ends : OverrideEntry → Bool) (cfg : OverrideConfig) (st : State) :
    List OverrideEntry → Prop :=
  Trace.Added .admitted fun log => Confirmed cfg st log ∧ ∀ e ∈ log, ends e = false

/-- When that had happened, and no context had ended, the call was admitted to `apply`. -/
def Admitted : OverrideConfig → State → List OverrideEntry → Prop :=
  AdmittedBefore OverrideEntry.isEnd

/-- What a nil result relies on: behind a successful answer, and before the deadline, the
cancellation by the caller and `Stop`, a confirming snapshot was fetched and the call admitted to
`apply`, which then got the state of that snapshot, where there is an `apply`, and before `Stop`
returned. -/
def Acknowledged (cfg : OverrideConfig) (log : List OverrideEntry) : Prop :=
  ∃ st, Admitted cfg st log ∧
    (cfg.hasApply = true → Trace.Added (.applied st)
      (fun log => Admitted cfg st log ∧ .stopReturned ∉ log) log)

/-- What an entry of the log relies on. -/
def Justified (cfg : OverrideConfig) (log : List OverrideEntry) : OverrideEntry → Prop
  | .posted => (∀ e ∈ log, e.isPost = false) ∧ Supported log
  | .returned true => Acknowledged cfg log
  | _ => True

/-- What the call relies on where it stands. -/
def Evidence (cfg : OverrideConfig) (log : List OverrideEntry) : OverridePC → Prop
  | .called | .starting | .validating => ∀ e ∈ log, e.isPost = false
  | .validated snap => (∀ e ∈ log, e.isPost = false) ∧ .fetched snap ∈ log
  | .supported | .encoding => (∀ e ∈ log, e.isPost = false) ∧ Supported log
  | .answered code => .answered code ∈ log
  | .awaiting | .awaitingClient | .fetching | .ticking => Answered log
  | .fetched snap | .fetchedClient snap | .checked snap => Carried snap log
  | .confirmed st | .locked st => Confirmed cfg st log
  | .lockedClient st => AdmittedBefore OverrideEntry.isOwnEnd cfg st log
  | .ready st => Admitted cfg st log
  | .applying => Acknowledged cfg log
  | .unlocking ok => ok = true → Acknowledged cfg log
  | .posting | .returned _ => True

section Growth

variable {cfg : OverrideConfig} {st : State} {log : List OverrideEntry}

/-! ### What was once the case stays so -/

theorem Supported.cons (h : Supported log) (e : OverrideEntry) : Supported (e :: log) := by
  obtain ⟨snap, hmem, hadv⟩ := h
  exact ⟨snap, List.mem_cons_of_mem e hmem, hadv⟩

theorem Answered.cons (h : Answered log) (e : OverrideEntry) : Answered (e :: log) := by
  obtain ⟨code, hlo, hhi, hmem⟩ := h
  exact ⟨code, hlo, hhi, List.mem_cons_of_mem e hmem⟩

/-- Behind the answer the POST is answered. -/
theorem Carried.answered {snap : Snapshot} (h : Carried snap log) : Answered log := by
  obtain ⟨later, earlier, rfl, code, hlo, hhi, hmem⟩ := Trace.added_iff.mp h
  exact ⟨code, hlo, hhi, List.mem_append_right _ (List.mem_cons_of_mem _ hmem)⟩

theorem Confirmed.cons (h : Confirmed cfg st log) (e : OverrideEntry) :
    Confirmed cfg st (e :: log) := by
  obtain ⟨snap, now, hst, hconf, hcar⟩ := h
  exact ⟨snap, now, hst, hconf, hcar.cons e⟩

theorem Acknowledged.cons (h : Acknowledged cfg log) (e : OverrideEntry) :
    Acknowledged cfg (e :: log) := by
  obtain ⟨st, hadm, happly⟩ := h
  exact ⟨st, hadm.cons e, fun hset => (happly hset).cons e⟩

/-- What a call relies on is not lost when something else than the POST happens. -/
theorem Evidence.cons {pc : OverridePC} (h : Evidence cfg log pc) {e : OverrideEntry}
    (he : e.isPost = false) : Evidence cfg (e :: log) pc := by
  have hposts : (∀ e ∈ log, e.isPost = false) → ∀ e' ∈ e :: log, e'.isPost = false := by
    intro hlog e' hmem
    rcases List.mem_cons.mp hmem with rfl | hmem
    · exact he
    · exact hlog e' hmem
  cases pc with
  | called | starting | validating => exact hposts h
  | validated snap => exact ⟨hposts h.1, List.mem_cons_of_mem e h.2⟩
  | supported | encoding => exact ⟨hposts h.1, h.2.cons e⟩
  | answered code => exact List.mem_cons_of_mem e h
  | awaiting | awaitingClient | fetching | ticking => exact Answered.cons h e
  | fetched snap | fetchedClient snap | checked snap => exact Trace.Added.cons h e
  | confirmed st | locked st => exact Confirmed.cons h e
  | lockedClient st | ready st => exact Trace.Added.cons h e
  | applying => exact Acknowledged.cons h e
  | unlocking ok => exact fun hok => (h hok).cons e
  | posting | returned ok => trivial

end Growth

namespace OverrideCall

variable {cfg : OverrideConfig} {s s' : OverrideCall}

/-! ## The invariant -/

/-- A call that stands inside `commandApplyMu` holds it, and one that is about to call `apply` is
waited for by `Stop`. -/
structure Joined (s : OverrideCall) (pc : OverridePC) : Prop where
  holder : pc.holds = true → s.commandApplyMu = some .call
  alive : pc.live = true → .stopReturned ∉ s.log

/-- Outside `commandApplyMu` nothing is asked for. -/
theorem Joined.outside {pc : OverridePC} (h : pc.holds = false) : Joined s pc where
  holder hholds := absurd (h.symm.trans hholds) (by decide)
  alive hlive := absurd (h.symm.trans (OverridePC.holds_of_live hlive)) (by decide)

/-- The deadline runs for a valid payload, the contexts know of their ends, and the call has what
it relies on. -/
structure Inv (cfg : OverrideConfig) (s : OverrideCall) : Prop where
  fresh : s.pc = .called → s.deadline = none
  dated : s.deadline = none → s.pc = .called ∨ s.pc = .returned false
  valid : s.deadline ≠ none → validateOverride cfg.payload = true
  caller : s.callerEnded = false → .callerEnded ∉ s.log
  clock : s.isExpired = false → .expired ∉ s.log
  stop : s.cancelled = false → .stopped ∉ s.log ∧ .stopReturned ∉ s.log
  joined : Joined s s.pc
  evidence : Evidence cfg s.log s.pc
  founded : Trace.Founded (fun e log => Justified cfg log e) s.log

/-- Outside the lock it may change hands. -/
theorem Inv.setLock (h : Inv cfg s) (hout : s.pc.holds = false) (mu : Option ApplyHolder) :
    Inv cfg { s with commandApplyMu := mu } :=
  ⟨h.fresh, h.dated, h.valid, h.caller, h.clock, h.stop, .outside hout, h.evidence, h.founded⟩

/-- The call moves on without a trace. -/
theorem Inv.moveTo (h : Inv cfg s) {pc : OverridePC} (hpc : pc ≠ .called)
    (hd : s.deadline ≠ none) (hj : Joined s pc) (he : Evidence cfg s.log pc) :
    Inv cfg (s.moveTo pc) :=
  ⟨fun hcalled => absurd hcalled hpc, fun hnone => absurd hnone hd, h.valid, h.caller, h.clock,
    h.stop, ⟨hj.holder, hj.alive⟩, he, h.founded⟩

/-- An entry that was not there and is not the new one is not there. -/
theorem notMem_note {e e' : OverrideEntry} {log : List OverrideEntry} (hne : e ≠ e')
    (h : e ∉ log) : e ∉ e' :: log := by
  rintro hmem
  rcases List.mem_cons.mp hmem with heq | hmem
  · exact hne heq
  · exact h hmem

/-- The entries that the contexts and `Stop` make. -/
def isOutside : OverrideEntry → Bool
  | .callerEnded | .expired | .stopped | .stopReturned => true
  | _ => false

/-- The call moves on and leaves a trace. -/
theorem Inv.note_moveTo (h : Inv cfg s) {pc : OverridePC} {e : OverrideEntry}
    (hpc : pc ≠ .called) (hd : s.deadline = none → pc = .returned false)
    (hend : isOutside e = false) (hholds : pc.holds = true → s.commandApplyMu = some .call)
    (hlive : pc.live = false) (hj : Justified cfg s.log e) (he : Evidence cfg (e :: s.log) pc) :
    Inv cfg ((s.note e).moveTo pc) := by
  have hne : ∀ e' : OverrideEntry, isOutside e' = true → e' ∉ s.log → e' ∉ e :: s.log := by
    intro e' hout hnot
    refine notMem_note ?_ hnot
    rintro rfl
    exact absurd (hend.symm.trans hout) (by decide)
  exact ⟨fun hcalled => absurd hcalled hpc, fun hnone => Or.inr (hd hnone), h.valid,
    fun hc => hne _ rfl (h.caller hc), fun hc => hne _ rfl (h.clock hc),
    fun hc => ⟨hne _ rfl (h.stop hc).1, hne _ rfl (h.stop hc).2⟩,
    ⟨hholds, fun hl => absurd (hlive.symm.trans hl) (by decide)⟩, he, hj, h.founded⟩

/-- The call goes on outside the lock and leaves a trace. -/
theorem Inv.record (h : Inv cfg s) {pc : OverridePC} {e : OverrideEntry} (hpc : pc ≠ .called)
    (hd : s.deadline ≠ none) (hend : isOutside e = false) (hout : pc.holds = false)
    (hj : Justified cfg s.log e) (he : Evidence cfg (e :: s.log) pc) :
    Inv cfg ((s.note e).moveTo pc) := by
  refine h.note_moveTo hpc (fun hnone => absurd hnone hd) hend
    (fun hholds => absurd (hout.symm.trans hholds) (by decide)) ?_ hj he
  by_contra hlive
  exact absurd (hout.symm.trans (OverridePC.holds_of_live (by simpa using hlive))) (by decide)

/-- The call returns. -/
theorem Inv.finish (h : Inv cfg s) {ok : Bool}
    (hok : ok = true → s.deadline ≠ none ∧ Acknowledged cfg s.log) : Inv cfg (s.finish ok) := by
  refine h.note_moveTo (by simp) (fun hnone => ?_) rfl (fun hholds => nomatch hholds) rfl ?_ trivial
  · cases ok with
    | false => rfl
    | true => exact absurd hnone (hok rfl).1
  · cases ok with
    | false => trivial
    | true => exact (hok rfl).2

/-- An error is returned. -/
theorem Inv.fail (h : Inv cfg s) : Inv cfg (s.finish false) := h.finish fun hok => nomatch hok

/-- A check of a context either fails or lets the call go on. -/
theorem Inv.check (h : Inv cfg s) {pc : OverridePC} {ended : Bool} (hpc : pc ≠ .called)
    (hout : pc.holds = false) (hd : s.deadline ≠ none)
    (he : ended = false → Evidence cfg s.log pc) :
    Inv cfg (if ended then s.finish false else s.moveTo pc) := by
  cases ended with
  | true => exact h.fail
  | false => exact h.moveTo hpc hd (.outside hout) (he rfl)

/-- Behind the check of the command's context neither its parent nor its deadline has ended. -/
theorem Inv.admitting (h : Inv cfg s) {st : State} (hctx : s.ctxEnded = false)
    (hconf : Confirmed cfg st s.log) :
    AdmittedBefore OverrideEntry.isOwnEnd cfg st (.admitted :: s.log) := by
  simp only [ctxEnded, Bool.or_eq_false_iff] at hctx
  obtain ⟨⟨hcaller, -⟩, hclock⟩ := hctx
  refine Trace.Added.now _ ⟨hconf, fun e he => ?_⟩
  cases e with
  | callerEnded => exact absurd he (h.caller hcaller)
  | expired => exact absurd he (h.clock hclock)
  | _ => rfl

/-- When the client's context is alive then, `Stop` had not cancelled it before either. -/
theorem Inv.admitted (h : Inv cfg s) {st : State} (hcancelled : s.cancelled = false)
    (hadm : AdmittedBefore OverrideEntry.isOwnEnd cfg st s.log) : Admitted cfg st s.log := by
  refine Trace.Added.imp hadm ?_
  rintro earlier hsuf ⟨hconf, hown⟩
  refine ⟨hconf, fun e he => ?_⟩
  cases e with
  | callerEnded | expired => exact hown _ he
  | stopped => exact absurd (hsuf.subset he) (h.stop hcancelled).1
  | _ => rfl

/-! ## What a step keeps -/

/-- What is not the POST may happen at any time. -/
theorem Inv.note (h : Inv cfg s) {e : OverrideEntry} (hpost : e.isPost = false)
    (hj : Justified cfg s.log e) : Evidence cfg (e :: s.log) s.pc ∧
      Trace.Founded (fun e log => Justified cfg log e) (e :: s.log) :=
  ⟨h.evidence.cons hpost, hj, h.founded⟩

/-- A call that is about to call `apply` is so when something else than the return of `Stop`
happens. -/
theorem Joined.note (h : Joined s s.pc) {e : OverrideEntry} (he : .stopReturned ≠ e) :
    Joined (s.note e) s.pc :=
  ⟨h.holder, fun hlive => notMem_note he (h.alive hlive)⟩

theorem inv_endCaller (h : Inv cfg s) :
    Inv cfg ({ s with callerEnded := true }.note .callerEnded) := by
  obtain ⟨hev, hf⟩ := h.note (e := .callerEnded) rfl trivial
  have hj : Joined (s.note .callerEnded) s.pc := h.joined.note (by simp)
  exact ⟨h.fresh, h.dated, h.valid, fun hc => absurd hc (by simp [OverrideCall.note]),
    fun hc => notMem_note (by simp) (h.clock hc),
    fun hc => ⟨notMem_note (by simp) (h.stop hc).1, notMem_note (by simp) (h.stop hc).2⟩,
    ⟨hj.holder, hj.alive⟩, hev, hf⟩

theorem inv_stop (h : Inv cfg s) : Inv cfg ({ s with cancelled := true }.note .stopped) := by
  obtain ⟨hev, hf⟩ := h.note (e := .stopped) rfl trivial
  have hj : Joined (s.note .stopped) s.pc := h.joined.note (by simp)
  exact ⟨h.fresh, h.dated, h.valid, fun hc => notMem_note (by simp) (h.caller hc),
    fun hc => notMem_note (by simp) (h.clock hc), fun hc => absurd hc (by simp [OverrideCall.note]),
    ⟨hj.holder, hj.alive⟩, hev, hf⟩

/-- `Stop` returns while no call is inside `commandApplyMu`. -/
theorem inv_stopReturn (h : Inv cfg s) (hcancelled : s.cancelled = true)
    (hfree : s.commandApplyMu = none) : Inv cfg (s.note .stopReturned) := by
  obtain ⟨hev, hf⟩ := h.note (e := .stopReturned) rfl trivial
  have hout : s.pc.holds = false := by
    by_contra hholds
    have hmu := h.joined.holder (by simpa using hholds)
    rw [hfree] at hmu
    cases hmu
  exact ⟨h.fresh, h.dated, h.valid, fun hc => notMem_note (by simp) (h.caller hc),
    fun hc => notMem_note (by simp) (h.clock hc),
    fun hc => absurd (hcancelled.symm.trans hc) (by decide), .outside hout, hev, hf⟩

/-- The deadline does not come back. -/
theorem isExpired_of_advance {d : ℕ} (h : s.isExpired = true) :
    { s with now := s.now + d }.isExpired = true := by
  obtain ⟨t, ht, hle⟩ := (Option.any_eq_true _ _).mp h
  refine (Option.any_eq_true _ _).mpr ⟨t, ht, ?_⟩
  have : t ≤ s.now := of_decide_eq_true hle
  exact decide_eq_true (Nat.le_add_right_of_le this)

theorem inv_advance (h : Inv cfg s) (d : ℕ) : Inv cfg (s.advance d) := by
  unfold advance
  simp only
  split_ifs with hover
  · simp only [Bool.and_eq_true, Bool.not_eq_true'] at hover
    obtain ⟨hev, hf⟩ := h.note (e := .expired) rfl trivial
    have hj : Joined (s.note .expired) s.pc := h.joined.note (by simp)
    refine ⟨h.fresh, h.dated, h.valid, fun hc => notMem_note (by simp) (h.caller hc), fun hc => ?_,
      fun hc => ⟨notMem_note (by simp) (h.stop hc).1, notMem_note (by simp) (h.stop hc).2⟩,
      ⟨hj.holder, hj.alive⟩, hev, hf⟩
    exact absurd (hc.symm.trans hover.2) (by decide)
  · refine ⟨h.fresh, h.dated, h.valid, h.caller, fun hc => h.clock ?_, h.stop,
      ⟨h.joined.holder, h.joined.alive⟩, h.evidence, h.founded⟩
    by_contra hexp
    have hexp : s.isExpired = true := by simpa using hexp
    exact absurd (hc.symm.trans (isExpired_of_advance hexp)) (by decide)

/-- A validated snapshot supports the command. -/
theorem supported_of_supports {snap : Snapshot} {st : State} {mapped checked : Time}
    {log : List OverrideEntry}
    (hst : snapshotToState cfg.scalars snap cfg.mapOptions mapped = some st)
    (hsup : supports cfg snap st checked = true) (hmem : .fetched snap ∈ log) : Supported log := by
  obtain ⟨hcap, hready⟩ := Bool.and_eq_true_iff.mp hsup
  exact ⟨snap, hmem, advertises_of_ready hst hcap hready⟩

/-- **The step of the call.**

**Proof sketch.** The POST is the step behind a supporting snapshot and a call that has not posted
yet; afterwards the call only collects what an acknowledgement consists of. -/
theorem inv_stepCall (h : Inv cfg s) {input : OverrideInput}
    (hs : s.stepCall cfg input s.pc = some s') : Inv cfg s' := by
  have hd : s.pc ≠ .called → s.pc ≠ .returned false → s.deadline ≠ none := by
    intro h₁ h₂ hnone
    rcases h.dated hnone with hpc | hpc
    · exact h₁ hpc
    · exact h₂ hpc
  have he := h.evidence
  have hj := h.joined
  generalize hpc : s.pc = pc at hs he hd hj
  cases pc with
  | called =>
    simp only [stepCall] at hs
    split_ifs at hs with hvalid <;> obtain rfl := Option.some.inj hs
    · have hclock : s.isExpired = false := by rw [isExpired, h.fresh hpc]; rfl
      exact ⟨fun hcalled => (nomatch hcalled), fun hnone => (nomatch hnone), fun _ => hvalid,
        h.caller, fun _ => h.clock hclock, h.stop, .outside rfl, he, h.founded⟩
    · exact h.fail
  | starting =>
    obtain rfl := Option.some.inj hs
    exact h.check (by simp) rfl (hd (by simp) (by simp)) fun _ => he
  | validating =>
    have hd := hd (by simp) (by simp)
    simp only [stepCall] at hs
    split at hs <;> cases hs
    · exact h.record (by simp) hd rfl rfl trivial
        ⟨(show Evidence cfg s.log .validating from he).cons rfl, List.mem_cons_self⟩
    · exact h.fail
  | validated snap =>
    obtain ⟨hposts, hmem⟩ := he
    simp only [stepCall] at hs
    split at hs
    · obtain ⟨st, hst, rfl⟩ := Option.map_eq_some_iff.mp hs
      split_ifs with hsup
      · exact h.moveTo (by simp) (hd (by simp) (by simp)) (.outside rfl)
          ⟨hposts, supported_of_supports hst hsup hmem⟩
      · exact h.fail
    · cases hs
  | supported =>
    obtain rfl := Option.some.inj hs
    exact h.check (by simp) rfl (hd (by simp) (by simp)) fun _ => he
  | encoding =>
    have hd := hd (by simp) (by simp)
    simp only [stepCall] at hs
    split at hs <;> cases hs
    split_ifs
    · exact h.record (by simp) hd rfl rfl he trivial
    · exact h.fail
  | posting =>
    have hd := hd (by simp) (by simp)
    simp only [stepCall] at hs
    split at hs <;> cases hs
    · exact h.record (by simp) hd rfl rfl trivial List.mem_cons_self
    · exact h.fail
  | answered code =>
    obtain rfl := Option.some.inj hs
    refine h.check (by simp) rfl (hd (by simp) (by simp)) fun hcode => ?_
    simp only [Bool.or_eq_false_iff, decide_eq_false_iff_not, not_lt, not_le] at hcode
    exact ⟨code, hcode.1, hcode.2, he⟩
  | awaiting | awaitingClient =>
    obtain rfl := Option.some.inj hs
    exact h.check (by simp) rfl (hd (by simp) (by simp)) fun _ => he
  | fetching =>
    have hd := hd (by simp) (by simp)
    simp only [stepCall] at hs
    split at hs <;> cases hs
    · exact h.record (by simp) hd rfl rfl trivial (Trace.Added.now _ he)
    · exact h.fail
  | fetched snap | fetchedClient snap =>
    obtain rfl := Option.some.inj hs
    exact h.check (by simp) rfl (hd (by simp) (by simp)) fun _ => he
  | checked snap =>
    have hd := hd (by simp) (by simp)
    simp only [stepCall] at hs
    split at hs
    · obtain ⟨st, hst, rfl⟩ := Option.map_eq_some_iff.mp hs
      split_ifs with hsup
      · obtain ⟨hcap, hready⟩ := Bool.and_eq_true_iff.mp hsup
        split
        · exact h.fail
        · next hack =>
          exact h.moveTo (by simp) hd (.outside rfl)
            ⟨snap, _, hst, confirms_of_acknowledged (h.valid hd) hst hcap hready hack, he⟩
        · exact h.moveTo (by simp) hd (.outside rfl) (Carried.answered he)
      · exact h.fail
    · cases hs
  | ticking =>
    simp only [stepCall] at hs
    split at hs
    · obtain rfl := Option.some.inj hs
      exact h.moveTo (by simp) (hd (by simp) (by simp)) (.outside rfl) he
    · split_ifs at hs
      obtain rfl := Option.some.inj hs
      exact h.fail
  | confirmed st =>
    simp only [stepCall] at hs
    split_ifs at hs
    obtain rfl := Option.some.inj hs
    exact (h.setLock (by rw [hpc]; rfl) _).moveTo (by simp) (hd (by simp) (by simp))
      ⟨fun _ => rfl, fun hlive => nomatch hlive⟩ he
  | locked st =>
    have hd := hd (by simp) (by simp)
    simp only [stepCall] at hs
    split_ifs at hs with hctx <;> obtain rfl := Option.some.inj hs
    · exact h.moveTo (by simp) hd ⟨fun _ => hj.holder rfl, fun hlive => nomatch hlive⟩
        fun hok => nomatch hok
    · exact h.note_moveTo (by simp) (fun hnone => absurd hnone hd) rfl (fun _ => hj.holder rfl) rfl
        trivial (h.admitting (by simpa using hctx) he)
  | lockedClient st =>
    have hd := hd (by simp) (by simp)
    obtain rfl := Option.some.inj hs
    cases hcancelled : s.cancelled with
    | true =>
      exact h.moveTo (by simp) hd ⟨fun _ => hj.holder rfl, fun hlive => nomatch hlive⟩
        fun hok => nomatch hok
    | false =>
      exact h.moveTo (by simp) hd ⟨fun _ => hj.holder rfl, fun _ => (h.stop hcancelled).2⟩
        (h.admitted hcancelled he)
  | ready st =>
    have hd := hd (by simp) (by simp)
    simp only [stepCall] at hs
    split_ifs at hs with hset <;> obtain rfl := Option.some.inj hs
    · exact h.note_moveTo (by simp) (fun hnone => absurd hnone hd) rfl (fun _ => hj.holder rfl) rfl
        trivial ⟨st, Trace.Added.cons he _, fun _ => Trace.Added.now _ ⟨he, hj.alive rfl⟩⟩
    · exact h.moveTo (by simp) hd ⟨fun _ => hj.holder rfl, fun hlive => nomatch hlive⟩
        fun _ => ⟨st, he, fun hset' => absurd hset' hset⟩
  | applying =>
    obtain rfl := Option.some.inj hs
    exact h.moveTo (by simp) (hd (by simp) (by simp))
      ⟨fun _ => hj.holder rfl, fun hlive => nomatch hlive⟩ fun _ => he
  | unlocking ok =>
    obtain rfl := Option.some.inj hs
    have hfin : Inv cfg (s.finish ok) := h.finish fun hok => ⟨hd (by simp) (by simp), he hok⟩
    exact hfin.setLock rfl none
  | returned ok => cases hs

theorem inv_step (h : Inv cfg s) {e : OverrideEvent} (hs : step cfg s e = some s') :
    Inv cfg s' := by
  cases e with
  | advance d =>
    obtain rfl := Option.some.inj hs
    exact inv_advance h d
  | endCaller =>
    simp only [step] at hs
    split_ifs at hs
    obtain rfl := Option.some.inj hs
    exact inv_endCaller h
  | stop =>
    simp only [step] at hs
    split_ifs at hs
    obtain rfl := Option.some.inj hs
    exact inv_stop h
  | relay =>
    simp only [step] at hs
    split_ifs at hs
    obtain rfl := Option.some.inj hs
    exact ⟨h.fresh, h.dated, h.valid, h.caller, h.clock, h.stop,
      ⟨h.joined.holder, h.joined.alive⟩, h.evidence, h.founded⟩
  | stopReturn =>
    simp only [step] at hs
    split_ifs at hs with hcond
    obtain rfl := Option.some.inj hs
    exact inv_stopReturn h hcond.1 hcond.2
  | lockOther | unlockOther =>
    simp only [step] at hs
    split_ifs at hs with hmu
    obtain rfl := Option.some.inj hs
    refine h.setLock ?_ _
    by_contra hholds
    exact absurd (hmu.symm.trans (h.joined.holder (by simpa using hholds))) (by simp)
  | call input => exact inv_stepCall h hs

theorem inv_init (h : Init s) : Inv cfg s := by
  rw [h]
  exact ⟨fun _ => rfl, fun _ => Or.inl rfl, fun hd => absurd rfl hd, fun _ => List.not_mem_nil,
    fun _ => List.not_mem_nil, fun _ => ⟨List.not_mem_nil, List.not_mem_nil⟩, .outside rfl,
    fun _ he => absurd he List.not_mem_nil, Trace.founded_nil⟩

/-- The invariant holds in every run. -/
theorem inv_of_reachable
    (h : Transition.Reachable (step cfg) (fun _ _ => True) Init s) : Inv cfg s :=
  h.invariant (fun _ => inv_init) fun _ _ _ hinv _ hs => inv_step hinv hs

/-! ## Soundness -/

/-- An override of 42 W. -/
def overrideConfig : OverrideConfig where
  payload := .object [("value", .float64 42), ("request_id", .string "request")]
  hasApply := true
  scalars := Lan.noScalars
  mapOptions := {}

/-- A snapshot with the status of that override. -/
def overrideSnapshot : Snapshot where
  capabilities := some (AList.singleton "setpoint_override" true)
  inverterPresent := true
  inverter := some [("setpoint_override",
    .object [("value", .number ⟨false, 42, [], none⟩), ("request_id", .string "request"),
      ("last_error", .nil)])]

/-- A call that is acknowledged, and `Stop` while its state is applied. -/
def acknowledgedRun : List OverrideEvent :=
  [.call .none, .call .none, .call (.snapshot (some overrideSnapshot)), .call (.readings 0 0),
    .call .none, .call (.built true), .call (.status (some 200)), .call .none, .call .none,
    .call .none, .call (.snapshot (some overrideSnapshot)), .call .none, .call .none,
    .call (.readings 0 0), .call .none, .call .none, .call .none, .call .none, .stop,
    .call .none, .call .none, .stopReturn]

/-- Whether the call returned nil. -/
def succeeded (s : OverrideCall) : Bool :=
  match s.pc with
  | .returned ok => ok
  | _ => false

end OverrideCall

end Gateway

end Dashboard
