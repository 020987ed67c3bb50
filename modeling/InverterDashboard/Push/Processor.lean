import InverterDashboard.Go.Float
import InverterDashboard.Push.Model

set_option relaxedAutoImplicit false
set_option autoImplicit false

/-!
# From observations to events

`internal/push/processor.go`. The processor keeps, for each kind of sample, the last one it saw, and
passes an event to `Enqueue` when two samples in a row cross the kind's threshold. Native
notifications are passed on as they are, silently while the list is still being primed. Whether a
call of `Enqueue` fails is decided by its environment.

## Main definitions

* `Push.Native`, `Push.Sample`, `Push.Observation` — what is observed.
* `Push.transition` — the thresholds.
* `Push.Processor`, `Push.Processor.reset`, `Push.Processor.observe`.

## Main results

* `Push.transition_isSome_iff` — the thresholds, on finite values.
* `Push.Processor.observe_of_ok` — the parts of an observation in which no call fails.
* `Push.Processor.samples_cons` — one sample.
-/

namespace Push

open Go (F64)

/-- `Native`: a notification with the time of its source. -/
structure Native where
  id : String
  source : String
  level : String
  title : String
  body : String
  timestamp : Instant
  deriving DecidableEq

/-- `Sample`: one observed leaf. -/
structure Sample where
  kind : String
  id : String
  value : Option F64
  deriving DecidableEq

/-- The key of a sample's baseline. -/
def Sample.key (σ : Sample) : String := σ.kind ++ ":" ++ σ.id

/-- `Observation`; a nil list of notifications is none. -/
structure Observation where
  notifications : Option (List Native) := none
  samples : List Sample := []
  retained : Bool := false
  complete : Bool := false

/-- `baseline`. -/
structure Baseline where
  value : F64
  at_ : Instant
  deriving DecidableEq

/-- The zero value of `time.Time`: the first of January of the year 1. -/
def zeroTime : Instant := seconds (-62135596800)

/-- The kind, the title and the body of a synthetic event. -/
structure Note where
  kind : String
  title : String
  body : String
  deriving DecidableEq

/-- `transition`; no event is an empty kind there. -/
def transition (kind : String) (before after : F64) : Option Note :=
  if kind = "ev" then
    if F64.lt 10 before = F64.lt 10 after then none
    else if F64.lt 10 after then
      some ⟨"ev", "EV charging started", "The charger is now delivering power."⟩
    else some ⟨"ev", "EV charging stopped", "The charger is no longer delivering power."⟩
  else if kind = "pump" ∨ kind = "valve" then
    if (!F64.eq before 0 && !F64.eq before 1) || (!F64.eq after 0 && !F64.eq after 1) ||
        F64.eq before after then none
    else if kind = "pump" then
      if F64.eq after 1 then some ⟨"water", "Water pump on", "The pump switched on."⟩
      else some ⟨"water", "Water pump off", "The pump switched off."⟩
    else if F64.eq after 1 then some ⟨"water", "Water valve open", "The water valve opened."⟩
    else some ⟨"water", "Water valve closed", "The water valve closed."⟩
  else if kind = "soc" then
    if F64.lt 20 before && F64.le before 100 && F64.le 0 after && F64.le after 20 then
      some ⟨"lowBattery", "Battery charge low",
        "The measured battery state of charge reached 20% or lower."⟩
    else none
  else none

/-- The thresholds: 10 W either way, a change between 0 and 1, and from above 20 % down to 20 %. -/
def Threshold (kind : String) (before after : ℚ) : Prop :=
  kind = "ev" ∧ (10 < before ↔ ¬10 < after) ∨
  (kind = "pump" ∨ kind = "valve") ∧ (before = 0 ∧ after = 1 ∨ before = 1 ∧ after = 0) ∨
  kind = "soc" ∧ (20 < before ∧ before ≤ 100) ∧ 0 ≤ after ∧ after ≤ 20

/-- `Processor`. A missing entry of a map is none. -/
structure Processor where
  epoch : String := ""
  source : String := ""
  start : Instant := zeroTime
  connected : Bool := false
  primed : Bool := false
  baseline : String → Option Baseline := fun _ => none
  unknown : String → Option String := fun _ => none
  selected : String → Option String := fun _ => none

/-- A call of `Enqueue`, with the position of the sample it is about. -/
structure Request where
  payload : Payload
  epoch : String
  prime : Bool
  sample : Option ℕ := none

/-- The processor inside `Observe`, the calls it has made, and whether all of them succeeded. -/
structure Progress where
  processor : Processor
  calls : List Request := []
  ok : Bool := true

namespace Processor

/-- `Reset`, once the new epoch is in the store. -/
def reset (epoch source : String) (connected : Bool) (now : Instant) : Processor :=
  { epoch, source, start := now, connected, primed := false }

/-- A call of `Enqueue`; `fails n` says whether the call after `n` others fails. -/
def enqueue (fails : ℕ → Bool) (p : Processor) (calls : List Request) (r : Request) : Progress :=
  { processor := p, calls := calls ++ [r], ok := !fails calls.length }

/-- The identity of a notification whose time is unknown. -/
def identity (n : Native) : String := n.title ++ "\x00" ++ n.body

/-- The call for a notification whose time is known: silent while the list is primed, after it was
seen without a time, for a level below a warning, and when it is too old or too new. -/
def nativeRequest (L : Libs) (p : Processor) (prime : Bool) (now : Instant) (n : Native) :
    Request :=
  let payload := makePayload L "native" (if n.source = "victron" then "victron" else "system")
    n.id n.title n.body n.timestamp now
  { payload
    epoch := p.epoch
    prime := prime || decide (p.unknown n.id = some (identity n)) ||
      decide (n.level ≠ "warning" ∧ n.level ≠ "error") || !payload.current now ||
      decide (n.timestamp < p.start - maxFutureSkew) }

/-- The loop over the notifications. -/
def natives (L : Libs) (fails : ℕ → Bool) (prime : Bool) (now : Instant) :
    List Native → Processor → List Request → Progress
  | [], p, calls => { processor := p, calls := calls }
  | n :: rest, p, calls =>
    let p :=
      if (p.unknown n.id).any fun old => old ≠ identity n then
        { p with unknown := Function.update p.unknown n.id none }
      else p
    if n.timestamp = zeroTime then
      natives L fails prime now rest
        (if prime then { p with unknown := Function.update p.unknown n.id (some (identity n)) }
        else p)
        calls
    else
      let progress := enqueue fails p calls (nativeRequest L p prime now n)
      if progress.ok then
        natives L fails prime now rest
          { p with unknown := Function.update p.unknown n.id none } progress.calls
      else progress

/-- The baseline that a sample replaces, when it is one of another device of the same kind. -/
def select (p : Processor) (σ : Sample) : Processor :=
  { p with
    baseline :=
      match p.selected σ.kind with
      | some old => if old ≠ σ.key then Function.update p.baseline old none else p.baseline
      | none => p.baseline
    selected := Function.update p.selected σ.kind (some σ.key) }

/-- The value of a sample that can be a baseline. -/
def liveValue (retained : Bool) (σ : Sample) : Option F64 :=
  match σ.value with
  | some v => if retained || !v.isFinite then none else some v
  | none => none

/-- What a sample becomes: the next baseline. -/
def record (p : Processor) (σ : Sample) (next : Option Baseline) : Processor :=
  { p with baseline := Function.update p.baseline σ.key next }

/-- The event of a live sample after a baseline. -/
def noteOf (σ : Sample) (previous : Option Baseline) (v : F64) (now : Instant) : Option Note :=
  match previous with
  | some b =>
    if now - b.at_ > seconds 30 ∨ now < b.at_ then none else transition σ.kind b.value v
  | none => none

/-- The loop over the samples; `i` is the position of the next one. -/
def samples (L : Libs) (fails : ℕ → Bool) (retained : Bool) (now : Instant) :
    ℕ → List Sample → Processor → List Request → Progress
  | _, [], p, calls => { processor := p, calls := calls }
  | i, σ :: rest, p, calls =>
    let p := p.select σ
    let previous := p.baseline σ.key
    match liveValue retained σ with
    | none => samples L fails retained now (i + 1) rest (p.record σ none) calls
    | some v =>
      let p := p.record σ (some ⟨v, now⟩)
      match noteOf σ previous v now with
      | none => samples L fails retained now (i + 1) rest p calls
      | some note =>
        let progress := enqueue fails p calls
          { payload := makePayload L note.kind "victron" σ.key note.title note.body now now
            epoch := p.epoch
            prime := false
            sample := some i }
        if progress.ok then samples L fails retained now (i + 1) rest p progress.calls
        else progress

/-- The part of `Observe` about notifications. -/
def observeNatives (L : Libs) (fails : ℕ → Bool) (p : Processor) (ob : Observation)
    (now : Instant) :
    Progress :=
  match ob.notifications with
  | none => { processor := p }
  | some ns =>
    let prime := decide (p.source ≠ "mqtt" ∧ p.primed = false) ||
      decide (p.source = "mqtt" ∧ now - p.start < seconds 10) || ob.retained
    let progress := natives L fails prime now ns p []
    if progress.ok then
      { progress with
        processor :=
          { progress.processor with
            unknown := fun id =>
              if id ∈ ns.map Native.id then progress.processor.unknown id else none
            primed := true } }
    else progress

/-- The baselines a complete observation leaves. -/
def sweep (p : Processor) (ob : Observation) : Processor :=
  if ob.complete then
    { p with baseline := fun key => if key ∈ ob.samples.map Sample.key then p.baseline key
    else none }
  else p

/-- `Observe`. -/
def observe (L : Libs) (fails : ℕ → Bool) (p : Processor) (ob : Observation) (now : Instant) :
    Progress :=
  if !p.connected then { processor := p }
  else
    let first := observeNatives L fails p ob now
    if first.ok then
      let second := samples L fails ob.retained now 0 ob.samples first.processor first.calls
      if second.ok then { second with processor := second.processor.sweep ob } else second
    else first

end Processor

/-! ## The thresholds -/

theorem transition_isSome_iff (kind : String) (a b : ℚ) :
    (transition kind (.fin a) (.fin b)).isSome = true ↔ Threshold kind a b := by
  have h₀ : (0 : F64) = .fin 0 := by rfl
  have h₁ : (1 : F64) = .fin 1 := by rfl
  have h₁₀ : (10 : F64) = .fin 10 := by rfl
  have h₂₀ : (20 : F64) = .fin 20 := by rfl
  have h₁₀₀ : (100 : F64) = .fin 100 := by rfl
  unfold transition Threshold
  rw [h₀, h₁, h₁₀, h₂₀, h₁₀₀]
  by_cases hev : kind = "ev"
  · subst hev
    simp only [if_true, F64.lt]
    by_cases ha : (10 : ℚ) < a <;> by_cases hb : (10 : ℚ) < b <;> simp [ha, hb]
  · rw [if_neg hev]
    by_cases hwater : kind = "pump" ∨ kind = "valve"
    · rw [if_pos hwater]
      have hsoc : kind ≠ "soc" := by
        rintro rfl
        rcases hwater with h | h <;> exact absurd h (by decide)
      simp only [hev, hwater, hsoc, false_and, true_and, or_false, false_or, F64.eq]
      by_cases ha₀ : a = 0
      · subst ha₀
        by_cases hb₁ : b = 1
        · subst hb₁
          by_cases hp : kind = "pump" <;> simp [hp]
        · by_cases hb₀ : b = 0 <;> simp [hb₀, hb₁]
      · by_cases ha₁ : a = 1
        · subst ha₁
          by_cases hb₀ : b = 0
          · subst hb₀
            by_cases hp : kind = "pump" <;> simp [hp]
          · by_cases hb₁ : b = 1 <;> simp [hb₀, hb₁]
        · simp [ha₀, ha₁]
    · rw [if_neg hwater]
      by_cases hsoc : kind = "soc"
      · subst hsoc
        simp only [if_true, F64.lt, F64.le, F64.eq, hev, hwater, false_and, true_and, false_or]
        have hle : ∀ x y : ℚ, (x < y ∨ x = y) ↔ x ≤ y := fun x y => le_iff_lt_or_eq.symm
        simp [hle, and_assoc]
      · rw [if_neg hsoc]
        simp [hev, hsoc, not_or.mp hwater]

namespace Processor

/-! ## The parts of an observation -/

/-- What an observation in which every call succeeds consists of. -/
theorem observe_of_ok {L : Libs} {fails : ℕ → Bool} {p : Processor} {ob : Observation}
    {now : Instant}
    (hconn : p.connected = true) (hok : (observe L fails p ob now).ok = true) :
    (observeNatives L fails p ob now).ok = true ∧
      (samples L fails ob.retained now 0 ob.samples (observeNatives L fails p ob now).processor
        (observeNatives L fails p ob now).calls).ok = true ∧
      observe L fails p ob now =
        { samples L fails ob.retained now 0 ob.samples (observeNatives L fails p ob now).processor
            (observeNatives L fails p ob now).calls with
          processor := (samples L fails ob.retained now 0 ob.samples
            (observeNatives L fails p ob now).processor
            (observeNatives L fails p ob now).calls).processor.sweep ob } := by
  unfold observe at hok ⊢
  simp only [hconn, Bool.not_true, Bool.false_eq_true, if_false] at hok ⊢
  by_cases h₁ : (observeNatives L fails p ob now).ok = true
  · rw [if_pos h₁] at hok ⊢
    by_cases h₂ : (samples L fails ob.retained now 0 ob.samples
        (observeNatives L fails p ob now).processor (observeNatives L fails p ob now).calls).ok =
        true
    · rw [if_pos h₂]
      exact ⟨h₁, h₂, rfl⟩
    · rw [if_neg h₂] at hok
      exact absurd hok h₂
  · rw [if_neg h₁] at hok
    exact absurd hok h₁

/-- The members that the notifications do not touch. -/
structure SameSamples (p p' : Processor) : Prop where
  epoch : p'.epoch = p.epoch
  connected : p'.connected = p.connected
  baseline : p'.baseline = p.baseline
  selected : p'.selected = p.selected

theorem SameSamples.trans {p₁ p₂ p₃ : Processor} (h : SameSamples p₁ p₂) (h' : SameSamples p₂ p₃) :
    SameSamples p₁ p₃ :=
  ⟨h'.epoch.trans h.epoch, h'.connected.trans h.connected, h'.baseline.trans h.baseline,
    h'.selected.trans h.selected⟩

/-- The loop over the notifications leaves the samples alone and asks for no synthetic event. -/
theorem natives_frame (L : Libs) (fails : ℕ → Bool) (prime : Bool) (now : Instant)
    (ns : List Native) (p : Processor) (calls : List Request)
    (hcalls : ∀ r ∈ calls, r.sample = none) :
    SameSamples p (natives L fails prime now ns p calls).processor ∧
      ∀ r ∈ (natives L fails prime now ns p calls).calls, r.sample = none := by
  induction ns generalizing p calls with
  | nil => exact ⟨⟨rfl, rfl, rfl, rfl⟩, hcalls⟩
  | cons n ns ih =>
    unfold natives
    dsimp only
    have hfirst : SameSamples p (if ((p.unknown n.id).any fun old => old ≠ identity n) = true then
        { p with unknown := Function.update p.unknown n.id none } else p) := by
      split_ifs <;> exact ⟨rfl, rfl, rfl, rfl⟩
    generalize (if ((p.unknown n.id).any fun old => old ≠ identity n) = true then
        { p with unknown := Function.update p.unknown n.id none } else p) = p₁ at hfirst ⊢
    by_cases hzero : n.timestamp = zeroTime
    · rw [if_pos hzero]
      have hsecond : SameSamples p₁ (if prime = true then
          { p₁ with unknown := Function.update p₁.unknown n.id (some (identity n)) } else p₁) := by
        split_ifs <;> exact ⟨rfl, rfl, rfl, rfl⟩
      obtain ⟨hsame, hnone⟩ := ih (if prime = true then
          { p₁ with unknown := Function.update p₁.unknown n.id (some (identity n)) } else p₁) calls
          hcalls
      exact ⟨(hfirst.trans hsecond).trans hsame, hnone⟩
    · rw [if_neg hzero]
      have hcalls' : ∀ r ∈ calls ++ [nativeRequest L p₁ prime now n], r.sample = none := by
        intro r hr
        rcases List.mem_append.mp hr with hold | hnew
        · exact hcalls r hold
        · rw [List.mem_singleton.mp hnew]
          rfl
      unfold enqueue
      dsimp only
      split_ifs
      · obtain ⟨hsame, hnone⟩ :=
          ih { p₁ with unknown := Function.update p₁.unknown n.id none } _ hcalls'
        have hcleared : SameSamples p₁
            { p₁ with unknown := Function.update p₁.unknown n.id none } :=
          ⟨rfl, rfl, rfl, rfl⟩
        exact ⟨hfirst.trans (hcleared.trans hsame), hnone⟩
      · exact ⟨hfirst, hcalls'⟩

theorem observeNatives_frame (L : Libs) (fails : ℕ → Bool) (p : Processor) (ob : Observation)
    (now : Instant) :
    SameSamples p (observeNatives L fails p ob now).processor ∧
      ∀ r ∈ (observeNatives L fails p ob now).calls, r.sample = none := by
  unfold observeNatives
  cases ob.notifications with
  | none => exact ⟨⟨rfl, rfl, rfl, rfl⟩, List.forall_mem_nil _⟩
  | some ns =>
    dsimp only
    obtain ⟨hsame, hnone⟩ := natives_frame L fails
      (decide (p.source ≠ "mqtt" ∧ p.primed = false) ||
        decide (p.source = "mqtt" ∧ now - p.start < seconds 10) || ob.retained) now ns p []
      (List.forall_mem_nil _)
    split_ifs
    · exact ⟨hsame.trans ⟨rfl, rfl, rfl, rfl⟩, hnone⟩
    · exact ⟨hsame, hnone⟩

/-- The event of a sample. -/
def eventOf (p : Processor) (retained : Bool) (now : Instant) (σ : Sample) : Option Note :=
  (liveValue retained σ).bind fun v => noteOf σ ((p.select σ).baseline σ.key) v now

/-- The processor after a sample. -/
def after (p : Processor) (retained : Bool) (now : Instant) (σ : Sample) : Processor :=
  (p.select σ).record σ ((liveValue retained σ).map fun v => ⟨v, now⟩)

/-- The call for an event. -/
def request (L : Libs) (p : Processor) (now : Instant) (i : ℕ) (σ : Sample) (note : Note) :
    Request :=
  { payload := makePayload L note.kind "victron" σ.key note.title note.body now now
    epoch := p.epoch
    prime := false
    sample := some i }

/-- One sample: the processor moves on in the same way whether or not there is an event. -/
theorem samples_cons (L : Libs) (fails : ℕ → Bool) (retained : Bool) (now : Instant) (i : ℕ)
    (σ : Sample) (rest : List Sample) (p : Processor) (calls : List Request) :
    samples L fails retained now i (σ :: rest) p calls =
      match p.eventOf retained now σ with
      | none => samples L fails retained now (i + 1) rest (p.after retained now σ) calls
      | some note =>
        if fails calls.length then
          { processor := p.after retained now σ
            calls := calls ++ [request L p now i σ note]
            ok := false }
        else samples L fails retained now (i + 1) rest (p.after retained now σ)
          (calls ++ [request L p now i σ note]) := by
  rw [samples]
  unfold eventOf after
  dsimp only
  cases liveValue retained σ with
  | none => rfl
  | some v =>
    simp only [Option.bind_some, Option.map_some]
    cases noteOf σ ((p.select σ).baseline σ.key) v now with
    | none => rfl
    | some note =>
      have hepoch : ((p.select σ).record σ (some ⟨v, now⟩)).epoch = p.epoch := rfl
      by_cases hf : fails calls.length = true
      · simp [enqueue, request, hf, hepoch]
      · simp [enqueue, request, hf, hepoch]

end Processor

end Push
