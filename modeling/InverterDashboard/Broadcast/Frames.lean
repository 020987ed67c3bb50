import InverterDashboard.Lib.Threads
import InverterDashboard.Lib.Transition

set_option relaxedAutoImplicit false
set_option autoImplicit false

/-!
# Frames for the browsers

`BroadcastState` builds its payload first and takes `writesMu` afterwards, and any number of calls
run at once: from the update handler and from the read loop of every connection. `HandleWebSocket`
registers a connection and builds and writes its initial frame inside `writesMu`. A payload is
represented by the version of the state it was built from, and a run keeps the frames written to
each connection, the latest first.

## Main definitions

* `Dashboard.BroadcastCall`, `Dashboard.ConnPC` — a call and a connection with their program
  counters.
* `Dashboard.Broadcasting`, `Dashboard.Broadcasting.step` — the system.
* `Dashboard.Broadcasting.Monotone`, `Dashboard.Broadcasting.UpToDate` — the order of the frames.
* `Dashboard.Broadcasting.InOrder` — no call takes `writesMu` that was overtaken.

## Main results

* `Dashboard.Broadcasting.inv_step` — what every step keeps.
* `Dashboard.Broadcasting.ordered_of_reachable` — where calls take `writesMu` in the order of their
  payloads, no connection falls back.
* `Dashboard.Broadcasting.not_ordered_of_overtaken` — where one overtakes another, it does.
-/

namespace Dashboard

/-! ## The system -/

/-- A state frame written to a connection: the version when its call began, the version it was
built from, and whether it is the initial one. -/
structure StateFrame where
  began : ℕ
  built : ℕ
  initial : Bool
  deriving DecidableEq

/-- Where a call of `BroadcastState` stands. -/
inductive BroadcastPC where
  /-- Before `buildPayload`. -/
  | building
  /-- Behind `buildPayload`, before `writesMu` is taken. -/
  | built (version : ℕ)
  /-- Inside `writesMu`, before the registry is read. -/
  | locked (version : ℕ)
  /-- Inside `writesMu`, with the peers that have not been written to. -/
  | sending (version : ℕ) (peers : List ℕ)
  /-- Returned. -/
  | returned

/-- A call of `BroadcastState`, with the version of the state when it began. -/
structure BroadcastCall where
  began : ℕ
  pc : BroadcastPC := .building

/-- The version the call holds inside `writesMu`. -/
def BroadcastPC.holding : BroadcastPC → Option ℕ
  | .locked version | .sending version _ => some version
  | _ => none

/-- Where `HandleWebSocket` stands. -/
inductive ConnPC where
  /-- Upgraded, before `writesMu` is taken. -/
  | arrived
  /-- Inside `writesMu`, not registered yet. -/
  | locked
  /-- Inside `writesMu`, registered. -/
  | registered
  /-- Inside `writesMu`, behind `BuildPayload`. -/
  | built (version : ℕ)
  /-- Inside `writesMu`, the initial frame was written or not. -/
  | written (ok : Bool)
  /-- The initial frame was not written, before the connection is removed. -/
  | failing
  /-- In the read loop. -/
  | opened
  /-- Removed. -/
  | closed
  deriving DecidableEq

/-- Whether the connection is inside `writesMu`. -/
def ConnPC.holds : ConnPC → Bool
  | .locked | .registered | .built _ | .written _ => true
  | _ => false

/-- Who holds `writesMu`. -/
inductive FrameWriter where
  | call (i : ℕ)
  | conn (c : ℕ)
  deriving DecidableEq

/-- The version of the state, `writesMu`, the registry, the calls, the connections, the frames
written to each connection, and the newest version at which a call began that has returned. -/
structure Broadcasting where
  version : ℕ
  writesMu : Option FrameWriter
  clients : List ℕ
  calls : ℕ → Option BroadcastCall
  conns : ℕ → Option ConnPC
  sent : ℕ → List StateFrame
  latest : ℕ

/-- What can happen. -/
inductive BroadcastingEvent where
  /-- An update of the state completes. -/
  | update
  /-- `BroadcastState` is called. -/
  | broadcast (i : ℕ)
  /-- A call takes its next step. -/
  | call (i : ℕ)
  /-- A call writes its frame to a peer. -/
  | send (i c : ℕ) (ok : Bool)
  /-- `HandleWebSocket` is called. -/
  | accept (c : ℕ)
  /-- A connection takes its next step. -/
  | conn (c : ℕ) (ok : Bool)
  /-- The read loop of a connection ends. -/
  | disconnect (c : ℕ)

namespace Broadcasting

/-- The system with the call `i` replaced. -/
def setCall (s : Broadcasting) (i : ℕ) (t : BroadcastCall) : Broadcasting :=
  { s with calls := Function.update s.calls i (some t) }

/-- The system with the connection `c` replaced. -/
def setConn (s : Broadcasting) (c : ℕ) (pc : ConnPC) : Broadcasting :=
  { s with conns := Function.update s.conns c (some pc) }

/-- `removeClient`. -/
def removeClient (s : Broadcasting) (c : ℕ) : Broadcasting :=
  { s with clients := s.clients.filter (· ≠ c) }

/-- A frame is written to a connection. -/
def write (s : Broadcasting) (c : ℕ) (f : StateFrame) : Broadcasting :=
  { s with sent := Function.update s.sent c (f :: s.sent c) }

/-- The next step of the call `i`. -/
def stepCall (s : Broadcasting) (i : ℕ) (t : BroadcastCall) : Option Broadcasting :=
  match t.pc with
  | .building => some (s.setCall i { t with pc := .built s.version })
  | .built version =>
    if s.writesMu = none then
      some ({ s with writesMu := some (.call i) }.setCall i { t with pc := .locked version })
    else none
  | .locked version => some (s.setCall i { t with pc := .sending version s.clients })
  | .sending _ [] =>
    some ({ s with writesMu := none, latest := max s.latest t.began }.setCall i
      { t with pc := .returned })
  | .sending _ (_ :: _) | .returned => none

/-- The call `i` writes to the peer `c`, or removes it. -/
def stepSend (s : Broadcasting) (i c : ℕ) (ok : Bool) (t : BroadcastCall) : Option Broadcasting :=
  match t.pc with
  | .sending version peers =>
    if c ∈ peers then
      let s' := if ok ∧ c ∈ s.clients then s.write c ⟨t.began, version, false⟩
        else s.removeClient c
      some (s'.setCall i { t with pc := .sending version (peers.filter (· ≠ c)) })
    else none
  | _ => none

/-- The next step of the connection `c`: `ok` is whether its initial frame is written. -/
def stepConn (s : Broadcasting) (c : ℕ) (ok : Bool) : ConnPC → Option Broadcasting
  | .arrived =>
    if s.writesMu = none then some ({ s with writesMu := some (.conn c) }.setConn c .locked)
    else none
  | .locked => some ({ s with clients := c :: s.clients }.setConn c .registered)
  | .registered => some (s.setConn c (.built s.version))
  | .built version =>
    some ((if ok then s.write c ⟨version, version, true⟩ else s).setConn c (.written ok))
  | .written ok =>
    some ({ s with writesMu := none }.setConn c (if ok then .opened else .failing))
  | .failing => some ((s.removeClient c).setConn c .closed)
  | .opened | .closed => none

/-- One step. -/
def step (s : Broadcasting) : BroadcastingEvent → Option Broadcasting
  | .update => some { s with version := s.version + 1 }
  | .broadcast i =>
    if (s.calls i).isNone then some (s.setCall i { began := s.version }) else none
  | .call i => (s.calls i).bind (s.stepCall i)
  | .send i c ok => (s.calls i).bind (s.stepSend i c ok)
  | .accept c => if s.conns c = none then some (s.setConn c .arrived) else none
  | .conn c ok => (s.conns c).bind (s.stepConn c ok)
  | .disconnect c =>
    if s.conns c = some .opened then some ((s.removeClient c).setConn c .closed) else none

/-- Nothing was called yet. -/
def Init (s : Broadcasting) : Prop :=
  s.writesMu = none ∧ s.clients = [] ∧ (∀ i, s.calls i = none) ∧ (∀ c, s.conns c = none) ∧
    (∀ c, s.sent c = []) ∧ s.latest = 0

/-! ## The order of the frames -/

/-- No connection is sent the frame of an older payload behind that of a call that began later. -/
def Monotone (s : Broadcasting) : Prop :=
  ∀ c, (s.sent c).Pairwise fun later earlier => earlier.initial = false →
    earlier.began ≤ later.built

/-- All calls have returned, and every connection is in its read loop or gone. -/
def Quiet (s : Broadcasting) : Prop :=
  s.writesMu = none ∧ (∀ i t, s.calls i = some t → t.pc = .returned) ∧
    ∀ c, s.conns c ≠ some .failing

/-- When all calls have returned, the last frame of each connection is as new as the state when any
of them began. -/
def UpToDate (s : Broadcasting) : Prop :=
  s.Quiet → ∀ c ∈ s.clients, ∃ f, (s.sent c).head? = some f ∧
    ∀ i t, s.calls i = some t → t.began ≤ f.built

/-- The call `i` is about to take `writesMu` with a payload older than the state when some call
began that has returned, and a connection is registered. -/
def overtaken (s : Broadcasting) (i : ℕ) : Bool :=
  match s.calls i with
  | some ⟨_, .built version⟩ => !s.clients.isEmpty && decide (version < s.latest)
  | _ => false

/-- No call takes `writesMu` that was overtaken. -/
def InOrder (s : Broadcasting) : BroadcastingEvent → Prop
  | .call i => s.overtaken i = false
  | _ => True

instance (s : Broadcasting) (e : BroadcastingEvent) : Decidable (s.InOrder e) :=
  match e with
  | .call i => inferInstanceAs (Decidable (s.overtaken i = false))
  | .update | .broadcast _ | .send .. | .accept _ | .conn .. | .disconnect _ => isTrue trivial

/-! ## The invariant -/

/-- The lock is held as the program counters say, the versions grow, and every frame is as new as
what was sent before it. -/
structure Inv (s : Broadcasting) : Prop where
  caller : ∀ i t v, s.calls i = some t → t.pc.holding = some v → s.writesMu = some (.call i)
  opener : ∀ c pc, s.conns c = some pc → pc.holds = true → s.writesMu = some (.conn c)
  began : ∀ i t, s.calls i = some t → t.began ≤ s.version
  built : ∀ i t v, s.calls i = some t → t.pc = .built v ∨ t.pc.holding = some v →
    t.began ≤ v ∧ v ≤ s.version
  latest : s.latest ≤ s.version
  returned : ∀ i t, s.calls i = some t → t.pc = .returned → t.began ≤ s.latest
  guarded : ∀ i t v, s.calls i = some t → t.pc.holding = some v → s.clients = [] ∨ s.latest ≤ v
  opening : ∀ c v, s.conns c = some (.built v) → s.latest ≤ v ∧ v ≤ s.version
  frames : ∀ c, ∀ f ∈ s.sent c, f.initial = false → f.began ≤ s.latest ∨
    ∃ i t v, s.calls i = some t ∧ t.pc.holding = some v ∧ t.began = f.began
  monotone : s.Monotone
  known : ∀ c ∈ s.clients, ∃ pc, s.conns c = some pc ∧
    (pc.holds = true ∨ pc = .failing ∨ pc = .opened)
  shown : ∀ c ∈ s.clients, s.conns c = some (.written true) ∨ s.conns c = some .opened →
    ∃ f, (s.sent c).head? = some f ∧ s.latest ≤ f.built ∧
      ∀ i t v peers, s.calls i = some t → t.pc = .sending v peers → c ∉ peers → t.began ≤ f.built

theorem inv_of_init {s : Broadcasting} (h : s.Init) : s.Inv := by
  obtain ⟨-, hclients, hcalls, hconns, hsent, hlatest⟩ := h
  refine ⟨?_, ?_, ?_, ?_, hlatest ▸ Nat.zero_le _, ?_, ?_, ?_, ?_, ?_, ?_, ?_⟩
  · intro i t v hi
    cases (hcalls i).symm.trans hi
  · intro c pc hc
    cases (hconns c).symm.trans hc
  · intro i t hi
    cases (hcalls i).symm.trans hi
  · intro i t v hi
    cases (hcalls i).symm.trans hi
  · intro i t hi
    cases (hcalls i).symm.trans hi
  · intro i t v hi
    cases (hcalls i).symm.trans hi
  · intro c v hc
    cases (hconns c).symm.trans hc
  · intro c f hf
    rw [hsent c] at hf
    cases hf
  · intro c
    rw [hsent c]
    exact List.Pairwise.nil
  · intro c hc
    rw [hclients] at hc
    cases hc
  · intro c hc
    rw [hclients] at hc
    cases hc

namespace Inv

variable {s : Broadcasting}

/-- Nobody is inside a free lock. -/
theorem holding_of_free (h : s.Inv) (hfree : s.writesMu = none) {i : ℕ} {t : BroadcastCall}
    (ht : s.calls i = some t) : t.pc.holding = none := by
  cases hv : t.pc.holding with
  | none => rfl
  | some v =>
    rw [h.caller i t v ht hv] at hfree
    cases hfree

/-- Two calls are not inside together. -/
theorem caller_unique (h : s.Inv) {i k : ℕ} {t u : BroadcastCall} {v w : ℕ}
    (hi : s.calls i = some t) (ht : t.pc.holding = some v) (hk : s.calls k = some u)
    (hu : u.pc.holding = some w) : k = i := by
  have heq := (h.caller k u w hk hu).symm.trans (h.caller i t v hi ht)
  exact FrameWriter.call.inj (Option.some.inj heq)

/-- A call and a connection are not inside together. -/
theorem not_holds (h : s.Inv) {i c : ℕ} {t : BroadcastCall} {v : ℕ} {pc : ConnPC}
    (hi : s.calls i = some t) (ht : t.pc.holding = some v) (hc : s.conns c = some pc) :
    pc.holds = false := by
  cases hp : pc.holds with
  | false => rfl
  | true =>
    have heq := (h.opener c pc hc hp).symm.trans (h.caller i t v hi ht)
    cases heq

/-- A call that is not inside goes on outside. -/
theorem setCall (h : s.Inv) {i : ℕ} {t : BroadcastCall} (hfresh : ∀ u, s.calls i = some u →
      u.pc.holding = none) (hpc : t.pc.holding = none) (hret : t.pc ≠ .returned)
    (hbegan : t.began ≤ s.version)
    (hbuilt : ∀ v, t.pc = .built v → t.began ≤ v ∧ v ≤ s.version) : (s.setCall i t).Inv := by
  refine ⟨?_, h.opener, ?_, ?_, h.latest, ?_, ?_, h.opening, ?_, h.monotone, h.known, ?_⟩
  · intro k u v hk hv
    rcases Threads.update_eq_some hk with ⟨-, rfl⟩ | ⟨-, hk⟩
    · rw [hpc] at hv
      cases hv
    · exact h.caller k u v hk hv
  · intro k u hk
    rcases Threads.update_eq_some hk with ⟨-, rfl⟩ | ⟨-, hk⟩
    · exact hbegan
    · exact h.began k u hk
  · intro k u v hk hv
    rcases Threads.update_eq_some hk with ⟨-, rfl⟩ | ⟨-, hk⟩
    · rw [hpc] at hv
      exact hbuilt v (hv.resolve_right (by simp))
    · exact h.built k u v hk hv
  · intro k u hk hu
    rcases Threads.update_eq_some hk with ⟨-, rfl⟩ | ⟨-, hk⟩
    · exact absurd hu hret
    · exact h.returned k u hk hu
  · intro k u v hk hv
    rcases Threads.update_eq_some hk with ⟨-, rfl⟩ | ⟨-, hk⟩
    · rw [hpc] at hv
      cases hv
    · exact h.guarded k u v hk hv
  · intro c f hf hinit
    refine (h.frames c f hf hinit).imp id ?_
    rintro ⟨k, u, v, hk, hv, hfu⟩
    have hki : k ≠ i := by
      rintro rfl
      rw [hfresh u hk] at hv
      cases hv
    exact ⟨k, u, v, Threads.update_of_ne hki hk, hv, hfu⟩
  · intro c hc hopen
    obtain ⟨f, hf, hlatest, hsent⟩ := h.shown c hc hopen
    refine ⟨f, hf, hlatest, fun k u v peers hk hu hmem => ?_⟩
    rcases Threads.update_eq_some hk with ⟨-, rfl⟩ | ⟨-, hk⟩
    · rw [hu] at hpc
      cases hpc
    · exact hsent k u v peers hk hu hmem

/-- A call takes the lock. -/
theorem lock (h : s.Inv) {i : ℕ} {t : BroadcastCall} {v : ℕ} (ht : s.calls i = some t)
    (hpc : t.pc = .built v) (hfree : s.writesMu = none)
    (hok : s.clients = [] ∨ s.latest ≤ v) :
    Inv ({ s with writesMu := some (.call i) }.setCall i { t with pc := .locked v }) := by
  have hnone : ∀ c pc, s.conns c = some pc → pc.holds = false := by
    intro c pc hc
    cases hp : pc.holds with
    | false => rfl
    | true =>
      rw [h.opener c pc hc hp] at hfree
      cases hfree
  refine ⟨?_, ?_, ?_, ?_, h.latest, ?_, ?_, ?_, ?_, h.monotone, h.known, ?_⟩
  · intro k u w hk hw
    rcases Threads.update_eq_some hk with ⟨rfl, -⟩ | ⟨-, hk⟩
    · rfl
    · rw [h.holding_of_free hfree hk] at hw
      cases hw
  · intro c pc hc hp
    rw [hnone c pc hc] at hp
    cases hp
  · intro k u hk
    rcases Threads.update_eq_some hk with ⟨-, rfl⟩ | ⟨-, hk⟩
    · exact h.began i t ht
    · exact h.began k u hk
  · intro k u w hk hw
    rcases Threads.update_eq_some hk with ⟨-, rfl⟩ | ⟨-, hk⟩
    · obtain rfl : v = w := Option.some.inj (hw.resolve_left (by simp))
      exact h.built i t v ht (Or.inl hpc)
    · exact h.built k u w hk hw
  · intro k u hk hu
    rcases Threads.update_eq_some hk with ⟨-, rfl⟩ | ⟨-, hk⟩
    · cases hu
    · exact h.returned k u hk hu
  · intro k u w hk hw
    rcases Threads.update_eq_some hk with ⟨-, rfl⟩ | ⟨-, hk⟩
    · exact Option.some.inj hw ▸ hok
    · rw [h.holding_of_free hfree hk] at hw
      cases hw
  · intro c w hc
    have := hnone c _ hc
    cases this
  · intro c f hf hinit
    refine (h.frames c f hf hinit).imp id ?_
    rintro ⟨k, u, w, hk, hw, -⟩
    rw [h.holding_of_free hfree hk] at hw
    cases hw
  · intro c hc hopen
    obtain ⟨f, hf, hlatest, hsent⟩ := h.shown c hc hopen
    refine ⟨f, hf, hlatest, fun k u w peers hk hu hmem => ?_⟩
    rcases Threads.update_eq_some hk with ⟨-, rfl⟩ | ⟨-, hk⟩
    · cases hu
    · exact hsent k u w peers hk hu hmem

/-- The call inside goes on inside: connections may go, and frames of its own may come. -/
theorem goOn (h : s.Inv) (clients : List ℕ) (sent : ℕ → List StateFrame) {i : ℕ}
    {t : BroadcastCall} {v : ℕ} {pc : BroadcastPC} (ht : s.calls i = some t)
    (hin : t.pc.holding = some v) (hpc : pc.holding = some v)
    (hclients : ∀ c ∈ clients, c ∈ s.clients)
    (hframes : ∀ c, ∀ f ∈ sent c, f ∈ s.sent c ∨ f.began = t.began)
    (hmono : Monotone { s with sent := sent })
    (hshown : ∀ c ∈ clients, s.conns c = some (.written true) ∨ s.conns c = some .opened →
      ∃ f, (sent c).head? = some f ∧ s.latest ≤ f.built ∧
        ∀ peers, pc = .sending v peers → c ∉ peers → t.began ≤ f.built) :
    Inv ({ s with clients := clients, sent := sent }.setCall i { t with pc := pc }) := by
  have hkeep : ∀ k u w, Function.update s.calls i (some { t with pc := pc }) k = some u →
      u.pc.holding = some w → k = i ∧ u = { t with pc := pc } ∧ w = v := by
    intro k u w hk hw
    rcases Threads.update_eq_some hk with ⟨rfl, rfl⟩ | ⟨hne, hk⟩
    · exact ⟨rfl, rfl, (Option.some.inj (hpc.symm.trans hw)).symm⟩
    · exact absurd (h.caller_unique ht hin hk hw) hne
  refine ⟨?_, h.opener, ?_, ?_, h.latest, ?_, ?_, h.opening, ?_, hmono, ?_, ?_⟩
  · intro k u w hk hw
    obtain ⟨rfl, -, -⟩ := hkeep k u w hk hw
    exact h.caller k t v ht hin
  · intro k u hk
    rcases Threads.update_eq_some hk with ⟨-, rfl⟩ | ⟨-, hk⟩
    · exact h.began i t ht
    · exact h.began k u hk
  · intro k u w hk hw
    rcases Threads.update_eq_some hk with ⟨-, rfl⟩ | ⟨-, hk⟩
    · rcases hw with hw | hw
      · rw [show pc = _ from hw] at hpc
        cases hpc
      · obtain rfl := Option.some.inj (hpc.symm.trans hw)
        exact h.built i t v ht (Or.inr hin)
    · exact h.built k u w hk hw
  · intro k u hk hu
    rcases Threads.update_eq_some hk with ⟨-, rfl⟩ | ⟨-, hk⟩
    · rw [show pc = _ from hu] at hpc
      cases hpc
    · exact h.returned k u hk hu
  · intro k u w hk hw
    obtain ⟨-, -, rfl⟩ := hkeep k u w hk hw
    refine (h.guarded i t w ht hin).imp (fun hnil => ?_) id
    exact List.eq_nil_iff_forall_not_mem.mpr fun c hc => by
      have := hclients c hc
      rw [hnil] at this
      cases this
  · intro c f hf hinit
    have hself : ∃ k u w, Function.update s.calls i (some { t with pc := pc }) k = some u ∧
        u.pc.holding = some w ∧ u.began = t.began :=
      ⟨i, _, v, Function.update_self _ _ _, hpc, rfl⟩
    rcases hframes c f hf with hold | hnew
    · refine (h.frames c f hold hinit).imp id ?_
      rintro ⟨k, u, w, hk, hw, hfu⟩
      obtain rfl := h.caller_unique ht hin hk hw
      obtain rfl := Option.some.inj (ht.symm.trans hk)
      exact hfu ▸ hself
    · exact Or.inr (hnew ▸ hself)
  · intro c hc
    exact h.known c (hclients c hc)
  · intro c hc hopen
    obtain ⟨f, hf, hlatest, hsent⟩ := hshown c hc hopen
    refine ⟨f, hf, hlatest, fun k u w peers hk hu hmem => ?_⟩
    obtain ⟨-, rfl, rfl⟩ := hkeep k u w hk (by rw [hu]; rfl)
    exact hsent peers hu hmem

/-- The call inside returns. -/
theorem finish (h : s.Inv) {i : ℕ} {t : BroadcastCall} {v : ℕ} (ht : s.calls i = some t)
    (hpc : t.pc = .sending v []) :
    Inv ({ s with writesMu := none, latest := max s.latest t.began }.setCall i
      { t with pc := .returned }) := by
  have hin : t.pc.holding = some v := by rw [hpc]; rfl
  have hnone : ∀ k u, Function.update s.calls i (some { t with pc := BroadcastPC.returned }) k =
      some u → u.pc.holding = none := by
    intro k u hk
    rcases Threads.update_eq_some hk with ⟨-, rfl⟩ | ⟨hne, hk⟩
    · rfl
    · cases hw : u.pc.holding with
      | none => rfl
      | some w => exact absurd (h.caller_unique ht hin hk hw) hne
  have hfree : ∀ c pc, s.conns c = some pc → pc.holds = false := fun c pc hc =>
    h.not_holds ht hin hc
  refine ⟨?_, ?_, ?_, ?_, max_le h.latest (h.began i t ht), ?_, ?_, ?_, ?_, h.monotone, h.known,
    ?_⟩
  · intro k u w hk hw
    rw [hnone k u hk] at hw
    cases hw
  · intro c pc hc hp
    rw [hfree c pc hc] at hp
    cases hp
  · intro k u hk
    rcases Threads.update_eq_some hk with ⟨-, rfl⟩ | ⟨-, hk⟩
    · exact h.began i t ht
    · exact h.began k u hk
  · intro k u w hk hw
    rcases Threads.update_eq_some hk with ⟨-, rfl⟩ | ⟨-, hk⟩
    · rcases hw with hw | hw <;> cases hw
    · exact h.built k u w hk hw
  · intro k u hk hu
    rcases Threads.update_eq_some hk with ⟨-, rfl⟩ | ⟨-, hk⟩
    · exact le_max_right _ _
    · exact (h.returned k u hk hu).trans (le_max_left _ _)
  · intro k u w hk hw
    rw [hnone k u hk] at hw
    cases hw
  · intro c w hc
    cases hfree c _ hc
  · intro c f hf hinit
    left
    rcases h.frames c f hf hinit with hle | ⟨k, u, w, hk, hw, hfu⟩
    · exact hle.trans (le_max_left _ _)
    · obtain rfl := h.caller_unique ht hin hk hw
      obtain rfl := Option.some.inj (ht.symm.trans hk)
      exact hfu ▸ le_max_right _ _
  · intro c hc hopen
    obtain ⟨f, hf, hlatest, hsent⟩ := h.shown c hc hopen
    refine ⟨f, hf, max_le hlatest (hsent i t v [] ht hpc (by simp)), fun k u w peers hk hu => ?_⟩
    have := hnone k u hk
    rw [hu] at this
    cases this

/-- A connection that is not registered moves outside the lock. -/
theorem setConn (h : s.Inv) (clients : List ℕ) {c : ℕ} {pc : ConnPC} (hpc : pc.holds = false)
    (hclients : ∀ d ∈ clients, d ∈ s.clients ∧ d ≠ c) :
    Inv ({ s with clients := clients }.setConn c pc) := by
  refine ⟨?_, ?_, h.began, h.built, h.latest, h.returned, ?_, ?_, h.frames, h.monotone, ?_, ?_⟩
  · exact h.caller
  · intro d pc' hd hp
    rcases Threads.update_eq_some hd with ⟨-, rfl⟩ | ⟨-, hd⟩
    · rw [hpc] at hp
      cases hp
    · exact h.opener d pc' hd hp
  · intro k u w hk hw
    refine (h.guarded k u w hk hw).imp (fun hnil => ?_) id
    exact List.eq_nil_iff_forall_not_mem.mpr fun d hd => by
      have := (hclients d hd).1
      rw [hnil] at this
      cases this
  · intro d v hd
    rcases Threads.update_eq_some hd with ⟨-, rfl⟩ | ⟨-, hd⟩
    · cases hpc
    · exact h.opening d v hd
  · intro d hd
    obtain ⟨hd, hdc⟩ := hclients d hd
    obtain ⟨pc', hpc', hp⟩ := h.known d hd
    exact ⟨pc', Threads.update_of_ne hdc hpc', hp⟩
  · intro d hd hopen
    obtain ⟨hd, hdc⟩ := hclients d hd
    refine h.shown d hd ?_
    replace hopen : Function.update s.conns c (some pc) d = some (.written true) ∨
        Function.update s.conns c (some pc) d = some .opened := hopen
    rwa [Function.update_of_ne hdc] at hopen

/-- A connection takes the lock. -/
theorem lockConn (h : s.Inv) {c : ℕ} (hc : s.conns c = some .arrived) (hfree : s.writesMu = none) :
    Inv ({ s with writesMu := some (.conn c) }.setConn c .locked) := by
  have hcalls : ∀ i t v, s.calls i = some t → t.pc.holding ≠ some v := by
    intro i t v hi hv
    rw [h.holding_of_free hfree hi] at hv
    cases hv
  refine ⟨?_, ?_, h.began, h.built, h.latest, h.returned, ?_, ?_, h.frames, h.monotone, ?_, ?_⟩
  · intro i t v hi hv
    exact absurd hv (hcalls i t v hi)
  · intro d pc hd hp
    rcases Threads.update_eq_some hd with ⟨rfl, -⟩ | ⟨-, hd⟩
    · rfl
    · rw [h.opener d pc hd hp] at hfree
      cases hfree
  · intro i t v hi hv
    exact absurd hv (hcalls i t v hi)
  · intro d v hd
    rcases Threads.update_eq_some hd with ⟨-, heq⟩ | ⟨-, hd⟩
    · cases heq
    · exact h.opening d v hd
  · intro d hd
    obtain ⟨pc, hpc, hp⟩ := h.known d hd
    have hdc : d ≠ c := by
      rintro rfl
      obtain rfl := Option.some.inj (hc.symm.trans hpc)
      simp [ConnPC.holds] at hp
    exact ⟨pc, Threads.update_of_ne hdc hpc, hp⟩
  · intro d hd hopen
    refine h.shown d hd ?_
    refine hopen.imp (fun ho => ?_) fun ho => ?_ <;>
      rcases Threads.update_eq_some ho with ⟨-, heq⟩ | ⟨-, ho⟩
    · cases heq
    · exact ho
    · cases heq
    · exact ho

/-- The connection inside goes on inside: it is registered, and its initial frame may come. -/
theorem connOn (h : s.Inv) (clients : List ℕ) (sent : ℕ → List StateFrame) {c : ℕ}
    {pc pc' : ConnPC} (hc : s.conns c = some pc) (hpc : pc.holds = true) (hpc' : pc'.holds = true)
    (hclients : ∀ d ∈ clients, d ∈ s.clients ∨ d = c)
    (hframes : ∀ d, ∀ f ∈ sent d, f ∈ s.sent d ∨ f.initial = true)
    (hmono : Monotone { s with sent := sent })
    (hother : ∀ d, d ≠ c → sent d = s.sent d)
    (hopening : ∀ v, pc' = .built v → s.latest ≤ v ∧ v ≤ s.version)
    (hshown : pc' = .written true → ∃ f, (sent c).head? = some f ∧ s.latest ≤ f.built) :
    Inv ({ s with clients := clients, sent := sent }.setConn c pc') := by
  have hcalls : ∀ i t v, s.calls i = some t → t.pc.holding ≠ some v := by
    intro i t v hi hv
    have := h.not_holds hi hv hc
    rw [hpc] at this
    cases this
  refine ⟨?_, ?_, h.began, h.built, h.latest, h.returned, ?_, ?_, ?_, hmono, ?_, ?_⟩
  · intro i t v hi hv
    exact absurd hv (hcalls i t v hi)
  · intro d q hd hq
    rcases Threads.update_eq_some hd with ⟨rfl, -⟩ | ⟨-, hd⟩
    · exact h.opener d pc hc hpc
    · exact h.opener d q hd hq
  · intro i t v hi hv
    exact absurd hv (hcalls i t v hi)
  · intro d v hd
    rcases Threads.update_eq_some hd with ⟨-, heq⟩ | ⟨-, hd⟩
    · exact hopening v heq.symm
    · exact h.opening d v hd
  · intro d f hf hinit
    rcases hframes d f hf with hf | hnew
    · exact h.frames d f hf hinit
    · rw [hinit] at hnew
      cases hnew
  · intro d hd
    by_cases hdc : d = c
    · subst hdc
      exact ⟨pc', Function.update_self _ _ _, Or.inl hpc'⟩
    · obtain ⟨q, hq, hqp⟩ := h.known d ((hclients d hd).resolve_right hdc)
      exact ⟨q, Threads.update_of_ne hdc hq, hqp⟩
  · intro d hd hopen
    by_cases hdc : d = c
    · subst hdc
      have hw : pc' = .written true := by
        rcases hopen with ho | ho <;> rcases Threads.update_eq_some ho with ⟨-, heq⟩ | ⟨hdd, -⟩
        · exact heq.symm
        · exact absurd rfl hdd
        · rw [← heq] at hpc'
          cases hpc'
        · exact absurd rfl hdd
      obtain ⟨f, hf, hlatest⟩ := hshown hw
      refine ⟨f, hf, hlatest, fun i t v peers hi hpeers => ?_⟩
      exact absurd (show t.pc.holding = some v by rw [hpeers]; rfl) (hcalls i t v hi)
    · replace hopen : Function.update s.conns c (some pc') d = some (.written true) ∨
          Function.update s.conns c (some pc') d = some .opened := hopen
      rw [Function.update_of_ne hdc] at hopen
      obtain ⟨f, hf, hrest⟩ := h.shown d ((hclients d hd).resolve_right hdc) hopen
      exact ⟨f, (congrArg List.head? (hother d hdc)).trans hf, hrest⟩

/-- The connection inside leaves the lock. -/
theorem unlockConn (h : s.Inv) {c : ℕ} {ok : Bool} (hc : s.conns c = some (.written ok)) :
    Inv ({ s with writesMu := none }.setConn c (if ok then .opened else .failing)) := by
  have hcalls : ∀ i t v, s.calls i = some t → t.pc.holding ≠ some v := by
    intro i t v hi hv
    cases h.not_holds hi hv hc
  have hlock := h.opener c _ hc rfl
  refine ⟨?_, ?_, h.began, h.built, h.latest, h.returned, ?_, ?_, h.frames, h.monotone, ?_, ?_⟩
  · intro i t v hi hv
    exact absurd hv (hcalls i t v hi)
  · intro d pc hd hp
    rcases Threads.update_eq_some hd with ⟨-, rfl⟩ | ⟨hdc, hd⟩
    · cases ok <;> cases hp
    · have := (h.opener d pc hd hp).symm.trans hlock
      exact absurd (FrameWriter.conn.inj (Option.some.inj this)) hdc
  · intro i t v hi hv
    exact absurd hv (hcalls i t v hi)
  · intro d v hd
    rcases Threads.update_eq_some hd with ⟨-, heq⟩ | ⟨-, hd⟩
    · cases ok <;> cases heq
    · exact h.opening d v hd
  · intro d hd
    by_cases hdc : d = c
    · subst hdc
      refine ⟨_, Function.update_self _ _ _, Or.inr ?_⟩
      cases ok
      · exact Or.inl rfl
      · exact Or.inr rfl
    · obtain ⟨pc, hpc, hp⟩ := h.known d hd
      exact ⟨pc, Threads.update_of_ne hdc hpc, hp⟩
  · intro d hd hopen
    refine h.shown d hd ?_
    rcases hopen with ho | ho <;> rcases Threads.update_eq_some ho with ⟨rfl, heq⟩ | ⟨-, ho⟩
    · cases ok <;> cases heq
    · exact Or.inl ho
    · cases ok
      · cases heq
      · exact Or.inl hc
    · exact Or.inr ho

end Inv

/-- **Step of a call.** -/
theorem inv_stepCall {s s' : Broadcasting} {i : ℕ} {t : BroadcastCall} (h : s.Inv)
    (ht : s.calls i = some t) (hok : s.InOrder (.call i)) (hs : s.stepCall i t = some s') :
    s'.Inv := by
  have hsame : ∀ u, s.calls i = some u → u = t := fun u hu =>
    (Option.some.inj (ht.symm.trans hu)).symm
  obtain ⟨began, pc⟩ := t
  cases pc with
  | building =>
    obtain rfl := Option.some.inj hs
    have hbegan : began ≤ s.version := h.began i _ ht
    refine h.setCall (fun u hu => hsame u hu ▸ rfl) rfl (by simp) hbegan fun v hv => ?_
    obtain rfl := BroadcastPC.built.inj hv
    exact ⟨hbegan, le_refl _⟩
  | built version =>
    simp only [stepCall] at hs
    split_ifs at hs with hfree
    obtain rfl := Option.some.inj hs
    refine h.lock ht rfl hfree ?_
    rw [InOrder, overtaken, ht] at hok
    by_cases hnil : s.clients = []
    · exact Or.inl hnil
    · right
      simpa [hnil] using hok
  | locked version =>
    obtain rfl := Option.some.inj hs
    refine h.goOn s.clients s.sent ht rfl rfl (fun c hc => hc)
      (fun c f hf => Or.inl hf) h.monotone fun c hc hopen => ?_
    obtain ⟨f, hf, hlatest, -⟩ := h.shown c hc hopen
    refine ⟨f, hf, hlatest, fun peers heq hmem => ?_⟩
    obtain ⟨-, rfl⟩ := BroadcastPC.sending.inj heq
    exact absurd hc hmem
  | sending version peers =>
    cases peers with
    | nil =>
      obtain rfl := Option.some.inj hs
      exact h.finish ht rfl
    | cons c peers => cases hs
  | returned => cases hs

/-- **Step of a write.** The frame of a call is as new as what was sent before it. -/
theorem inv_stepSend {s s' : Broadcasting} {i c : ℕ} {ok : Bool} {t : BroadcastCall} (h : s.Inv)
    (ht : s.calls i = some t) (hs : s.stepSend i c ok t = some s') : s'.Inv := by
  obtain ⟨began, pc⟩ := t
  cases pc with
  | sending version peers =>
    simp only [stepSend] at hs
    split_ifs at hs with hmem hwrite
    · obtain rfl := Option.some.inj hs
      have hnew : s.latest ≤ version := by
        refine (h.guarded i _ version ht rfl).resolve_left fun hnil => ?_
        rw [hnil] at hwrite
        cases hwrite.2
      obtain ⟨hbegan, -⟩ := h.built i _ version ht (Or.inr rfl)
      refine h.goOn s.clients _ ht rfl rfl (fun d hd => hd) (fun d f hf => ?_)
        (fun d => ?_) fun d hd hopen => ?_
      · by_cases hdc : d = c
        · subst hdc
          replace hf : f ∈ Function.update s.sent d (_ :: s.sent d) d := hf
          rw [Function.update_self] at hf
          rcases List.mem_cons.mp hf with rfl | hf
          · exact Or.inr rfl
          · exact Or.inl hf
        · left
          replace hf : f ∈ Function.update s.sent c (_ :: s.sent c) d := hf
          rwa [Function.update_of_ne hdc] at hf
      · show (Function.update s.sent c (⟨began, version, false⟩ :: s.sent c) d).Pairwise _
        by_cases hdc : d = c
        · subst hdc
          rw [Function.update_self]
          refine List.Pairwise.cons (fun f hf hinit => ?_) (h.monotone d)
          rcases h.frames d f hf hinit with hle | ⟨k, u, w, hk, hw, hfu⟩
          · exact hle.trans hnew
          · obtain rfl := h.caller_unique ht rfl hk hw
            obtain rfl := Option.some.inj (ht.symm.trans hk)
            exact hfu ▸ hbegan
        · rw [Function.update_of_ne hdc]
          exact h.monotone d
      · by_cases hdc : d = c
        · subst hdc
          refine ⟨⟨began, version, false⟩, ?_, hnew, fun _ _ _ => hbegan⟩
          show (Function.update s.sent d (⟨began, version, false⟩ :: s.sent d) d).head? = _
          rw [Function.update_self]
          rfl
        · obtain ⟨f, hf, hlatest, hsent⟩ := h.shown d hd hopen
          refine ⟨f, ?_, hlatest, fun ps hps hdps => ?_⟩
          · show (Function.update s.sent c _ d).head? = _
            rwa [Function.update_of_ne hdc]
          · obtain ⟨-, rfl⟩ := BroadcastPC.sending.inj hps
            refine hsent i _ version peers ht rfl fun hd' => hdps ?_
            exact List.mem_filter.mpr ⟨hd', by simpa using hdc⟩
    · obtain rfl := Option.some.inj hs
      refine h.goOn _ s.sent ht rfl rfl (fun d hd => List.mem_of_mem_filter hd)
        (fun d f hf => Or.inl hf) h.monotone fun d hd hopen => ?_
      obtain ⟨hd, hdc⟩ := List.mem_filter.mp hd
      obtain ⟨f, hf, hlatest, hsent⟩ := h.shown d hd hopen
      refine ⟨f, hf, hlatest, fun ps hps hdps => ?_⟩
      obtain ⟨-, rfl⟩ := BroadcastPC.sending.inj hps
      exact hsent i _ version peers ht rfl fun hd' => hdps (List.mem_filter.mpr ⟨hd', hdc⟩)
  | building => cases hs
  | built version => cases hs
  | locked version => cases hs
  | returned => cases hs

/-- **Step of a connection.** Its initial frame is built inside the lock. -/
theorem inv_stepConn {s s' : Broadcasting} {c : ℕ} {ok : Bool} {pc : ConnPC} (h : s.Inv)
    (hc : s.conns c = some pc) (hs : s.stepConn c ok pc = some s') : s'.Inv := by
  cases pc with
  | arrived =>
    simp only [stepConn] at hs
    split_ifs at hs with hfree
    exact Option.some.inj hs ▸ h.lockConn hc hfree
  | locked =>
    obtain rfl := Option.some.inj hs
    refine h.connOn _ s.sent hc rfl rfl (fun d hd => ?_) (fun d f hf => Or.inl hf) h.monotone
      (fun d _ => rfl) (fun v heq => by cases heq) fun heq => by cases heq
    exact (List.mem_cons.mp hd).symm
  | registered =>
    obtain rfl := Option.some.inj hs
    refine h.connOn s.clients s.sent hc rfl rfl (fun d hd => Or.inl hd) (fun d f hf => Or.inl hf)
      h.monotone (fun d _ => rfl) (fun v heq => ?_) fun heq => by cases heq
    obtain rfl := ConnPC.built.inj heq
    exact ⟨h.latest, le_refl _⟩
  | built version =>
    obtain rfl := Option.some.inj hs
    obtain ⟨hlatest, -⟩ := h.opening c version hc
    cases ok with
    | false =>
      exact h.connOn s.clients s.sent hc rfl rfl (fun d hd => Or.inl hd)
        (fun d f hf => Or.inl hf) h.monotone (fun d _ => rfl) (fun v heq => by cases heq)
        fun heq => by cases heq
    | true =>
      -- Nothing is inside but the connection, so what was sent before began no later.
      have hbefore : ∀ f ∈ s.sent c, f.initial = false → f.began ≤ version := by
        intro f hf hinit
        rcases h.frames c f hf hinit with hle | ⟨k, u, w, hk, hw, -⟩
        · exact hle.trans hlatest
        · cases h.not_holds hk hw hc
      refine h.connOn s.clients _ hc rfl rfl (fun d hd => Or.inl hd) (fun d f hf => ?_)
        (fun d => ?_) (fun d hdc => Function.update_of_ne hdc _ _) (fun v heq => by cases heq)
        fun _ => ⟨⟨version, version, true⟩, ?_, hlatest⟩
      · by_cases hdc : d = c
        · subst hdc
          replace hf : f ∈ Function.update s.sent d (_ :: s.sent d) d := hf
          rw [Function.update_self] at hf
          rcases List.mem_cons.mp hf with rfl | hf
          · exact Or.inr rfl
          · exact Or.inl hf
        · left
          replace hf : f ∈ Function.update s.sent c (_ :: s.sent c) d := hf
          rwa [Function.update_of_ne hdc] at hf
      · show (Function.update s.sent c (⟨version, version, true⟩ :: s.sent c) d).Pairwise _
        by_cases hdc : d = c
        · subst hdc
          rw [Function.update_self]
          exact List.Pairwise.cons (fun f hf hinit => hbefore f hf hinit) (h.monotone d)
        · rw [Function.update_of_ne hdc]
          exact h.monotone d
      · show (Function.update s.sent c (⟨version, version, true⟩ :: s.sent c) c).head? = _
        rw [Function.update_self]
        rfl
  | written ok' => exact Option.some.inj hs ▸ h.unlockConn hc
  | failing =>
    obtain rfl := Option.some.inj hs
    exact h.setConn _ rfl fun d hd => by simpa using List.mem_filter.mp hd
  | opened => cases hs
  | closed => cases hs

/-- **Step.** What every step keeps. -/
theorem inv_step {s s' : Broadcasting} {e : BroadcastingEvent} (h : s.Inv) (hok : s.InOrder e)
    (hs : s.step e = some s') : s'.Inv := by
  cases e with
  | update =>
    obtain rfl := Option.some.inj hs
    exact ⟨h.caller, h.opener, fun i t ht => (h.began i t ht).trans (Nat.le_succ _),
      fun i t v ht hv => ⟨(h.built i t v ht hv).1, (h.built i t v ht hv).2.trans (Nat.le_succ _)⟩,
      h.latest.trans (Nat.le_succ _), h.returned, h.guarded,
      fun c v hc => ⟨(h.opening c v hc).1, (h.opening c v hc).2.trans (Nat.le_succ _)⟩, h.frames,
      h.monotone, h.known, h.shown⟩
  | broadcast i =>
    simp only [step] at hs
    split_ifs at hs with hnone
    obtain rfl := Option.some.inj hs
    refine h.setCall (fun u hu => ?_) rfl (by simp) (le_refl _) fun v hv => by cases hv
    rw [hu] at hnone
    cases hnone
  | call i =>
    obtain ⟨t, ht, hs⟩ := Option.bind_eq_some_iff.mp hs
    exact inv_stepCall h ht hok hs
  | send i c ok =>
    obtain ⟨t, ht, hs⟩ := Option.bind_eq_some_iff.mp hs
    exact inv_stepSend h ht hs
  | accept c =>
    simp only [step] at hs
    split_ifs at hs with hnone
    obtain rfl := Option.some.inj hs
    refine h.setConn s.clients rfl fun d hd => ⟨hd, ?_⟩
    rintro rfl
    obtain ⟨pc, hpc, -⟩ := h.known d hd
    rw [hnone] at hpc
    cases hpc
  | conn c ok =>
    obtain ⟨pc, hc, hs⟩ := Option.bind_eq_some_iff.mp hs
    exact inv_stepConn h hc hs
  | disconnect c =>
    simp only [step] at hs
    split_ifs at hs
    obtain rfl := Option.some.inj hs
    exact h.setConn _ rfl fun d hd => by simpa using List.mem_filter.mp hd

/-! ## The result -/

/-- The invariant implies that the last frames are up to date. -/
theorem Inv.upToDate {s : Broadcasting} (h : s.Inv) : s.UpToDate := by
  rintro ⟨hfree, hcalls, hfailing⟩ c hc
  obtain ⟨pc, hpc, hp⟩ := h.known c hc
  have hopened : s.conns c = some .opened := by
    rcases hp with hp | rfl | rfl
    · rw [h.opener c pc hpc hp] at hfree
      cases hfree
    · exact absurd hpc (hfailing c)
    · exact hpc
  obtain ⟨f, hf, hlatest, -⟩ := h.shown c hc (Or.inr hopened)
  exact ⟨f, hf, fun i t ht => (h.returned i t ht (hcalls i t ht)).trans hlatest⟩

/-- **Frames in order.** In a run in which calls take `writesMu` in the order of their payloads, no
connection is sent the frame of an older payload behind that of a call that began later; and when
all calls have returned, the last frame of every connection is as new as the state when any of them
began.

**Proof sketch.** Inside `writesMu` a call holds a payload that is as new as everything that was
sent before, because only calls that have returned have sent, and an initial frame is built inside
it. -/
theorem ordered_of_reachable {s : Broadcasting}
    (h : Transition.Reachable Broadcasting.step Broadcasting.InOrder Broadcasting.Init s) :
    s.Monotone ∧ s.UpToDate := by
  have hinv : s.Inv := h.invariant (fun _ hs => inv_of_init hs)
    fun _ _ _ hi hok hs => inv_step hi hok hs
  exact ⟨hinv.monotone, hinv.upToDate⟩

/-- Nothing was called yet. -/
def silent : Broadcasting := ⟨0, none, [], fun _ => none, fun _ => none, fun _ => [], 0⟩

theorem init_silent : silent.Init :=
  ⟨rfl, rfl, fun _ => rfl, fun _ => rfl, fun _ => rfl, rfl⟩

/-- A connection is in its read loop, and two calls build their payloads around an update. -/
def twoCalls : List BroadcastingEvent :=
  [.accept 0, .conn 0 true, .conn 0 true, .conn 0 true, .conn 0 true, .conn 0 true,
    .broadcast 0, .call 0, .update, .broadcast 1, .call 1]

/-- A call takes the lock, writes its frame and returns. -/
def sendsTo (i c : ℕ) : List BroadcastingEvent := [.call i, .call i, .send i c true, .call i]

/-- The call with the newer payload is the first to take the lock, and the connection falls back. -/
theorem not_ordered_of_overtaken : ∃ s,
    Transition.Reachable Broadcasting.step (fun _ _ => True) Broadcasting.Init s ∧
      ¬ (s.Monotone ∧ s.UpToDate) := by
  obtain ⟨s, hs, hp⟩ := Transition.Reachable.exists_of_run Broadcasting.step (fun _ _ => True)
    (twoCalls ++ sendsTo 1 0 ++ sendsTo 0 0)
    (fun s => s.sent 0 == [⟨0, 0, false⟩, ⟨1, 1, false⟩, ⟨0, 0, true⟩]) init_silent
    (Transition.Allowed.of_forall (fun _ _ => trivial) silent) (by decide)
  refine ⟨s, hs, fun h => ?_⟩
  have hmono := h.1 0
  rw [beq_iff_eq.mp hp] at hmono
  revert hmono
  decide

/-- The call with the older payload is the first to take the lock. -/
theorem ordered_of_reachable_twoCalls : ∃ s,
    Transition.Reachable Broadcasting.step Broadcasting.InOrder Broadcasting.Init s ∧
      s.sent 0 = [⟨1, 1, false⟩, ⟨0, 0, false⟩, ⟨0, 0, true⟩] ∧ s.Monotone ∧ s.UpToDate := by
  obtain ⟨s, hs, hp⟩ := Transition.Reachable.exists_of_run Broadcasting.step Broadcasting.InOrder
    (twoCalls ++ sendsTo 0 0 ++ sendsTo 1 0)
    (fun s => s.sent 0 == [⟨1, 1, false⟩, ⟨0, 0, false⟩, ⟨0, 0, true⟩]) init_silent (by decide)
    (by decide)
  exact ⟨s, hs, beq_iff_eq.mp hp, ordered_of_reachable hs⟩

end Broadcasting

end Dashboard
