import InverterDashboard.Lan.Pushing
import InverterDashboard.Push.Durable
import InverterDashboard.Push.Natives

set_option relaxedAutoImplicit false
set_option autoImplicit false

/-!
# The events of a notification slot on LAN

The leaves of a new event of a platform slot arrive one by one, and each hands over the whole banner
list. The first list in which the slot has a description, a known severity and the time of the event
takes the event, with the texts that are there at that time.

## Main definitions

* `Push.Payload.refit` — a payload with another body.
* `Push.Processor.handed` — the call that an observation makes for an event.
* `Dashboard.SlotEvent`, `Dashboard.SlotEvent.complete` — the leaves of an event, and the slot with
  them.
* `Dashboard.Own` — a payload has the texts of a slot.
* `Dashboard.SlotEvent.Settled` — the leaves still to come change nothing that was handed over.
* `Dashboard.Delivering`, `Dashboard.Delivering.step` — a run with the event in delivery.

## Main results

* `Dashboard.PlatformSlot.updateField_comm` — the fields of a slot are written in any order.
* `Dashboard.SlotEvent.own_iff_settled` — one event.
* `Dashboard.Delivering.own_iff_of_reachable` — the run result.
-/

namespace Push

/-! ## Payloads with another body -/

/-- The payload with another body, cut as `makePayload` cuts it. -/
def Payload.refit (p : Payload) (body : String) : Payload :=
  fitBody p (boundedText body 1000).toList (boundedText body 1000).toList.length

/-- The loop does not read the body that is there. -/
theorem fitBody_body (p : Payload) (body : String) (runes : List Char) (n : ℕ) :
    fitBody { p with body := body } runes n = fitBody p runes n := by
  induction n with
  | zero => rfl
  | succ n ih =>
    unfold fitBody
    dsimp only
    rw [ih]

theorem refit_refit (p : Payload) (body body' : String) :
    (p.refit body).refit body' = p.refit body' := by
  obtain ⟨m, -, heq, -⟩ := fitBody_longest p (boundedText body 1000).toList
    (boundedText body 1000).toList.length
  unfold Payload.refit
  rw [heq, fitBody_body]

section Make

variable (L : Libs) (kind source id : String) {title title' : String} (body body' : String)
  (occurred observed : Instant)

/-- Another body in a payload that was made. -/
theorem makePayload_refit :
    (makePayload L kind source id title body occurred observed).refit body' =
      makePayload L kind source id title body' occurred observed :=
  refit_refit _ body body'

theorem makePayload_title :
    (makePayload L kind source id title body occurred observed).title =
      if boundedText title 120 = "" then "Notification" else boundedText title 120 := by
  unfold makePayload
  dsimp only
  exact (fitBody_members _ _ _).2.2.2

/-- A payload reads a bounded part of the title. -/
theorem makePayload_congr_title (h : boundedText title 120 = boundedText title' 120) :
    makePayload L kind source id title body occurred observed =
      makePayload L kind source id title' body occurred observed := by
  unfold makePayload
  dsimp only
  rw [h]

/-- The bounded part of a title is not empty. -/
theorem boundedText_ne_empty (h : title ≠ "") : boundedText title 120 ≠ "" := by
  intro hempty
  have hlist := congrArg String.toList hempty
  rw [boundedText, String.toList_ofList, String.toList_empty, List.take_eq_nil_iff] at hlist
  exact h (String.toList_eq_nil_iff.mp (hlist.resolve_left (by decide)))

end Make

/-! ## The calls of an observation -/

/-- The notifications of an observation whose time is known. -/
def Observation.timed (ob : Observation) : List Native :=
  (ob.notifications.getD []).filter (·.timestamp ≠ zeroTime)

/-- The calls that succeeded: all, or all but the last. -/
def Progress.made (g : Progress) : List Request := if g.ok then g.calls else g.calls.dropLast

namespace Processor

/-- The call that an observation makes, with success, for a notification of an identifier and a time
in milliseconds. -/
def handed (L : Libs) (fails : ℕ → Bool) (p : Processor) (ob : Observation) (now : Instant)
    (id : String) (ms : ℤ) : Option Request :=
  ((ob.timed.zip (observe L fails p ob now).made).find? fun e =>
    e.1.id == id && unixMilli e.1.timestamp == ms).map Prod.snd

/-- The loop makes its calls in the order of the notifications. -/
theorem natives_zip (L : Libs) (fails : ℕ → Bool) (prime : Bool) (now : Instant)
    (ns : List Native) (p : Processor) (calls : List Request) :
    ∃ rest, (natives L fails prime now ns p calls).calls = calls ++ rest ∧
      ∀ e ∈ (ns.filter (·.timestamp ≠ zeroTime)).zip rest,
        ∃ p' : Processor, e.2 = nativeRequest L p' prime now e.1 := by
  induction ns generalizing p calls with
  | nil => exact ⟨[], (List.append_nil _).symm, List.forall_mem_nil _⟩
  | cons n ns ih =>
    rw [natives_cons]
    by_cases hzero : n.timestamp = zeroTime
    · rw [if_pos hzero, List.filter_cons_of_neg (by simpa using hzero)]
      exact ih _ _
    · rw [if_neg hzero, List.filter_cons_of_pos (by simpa using hzero)]
      split_ifs
      · refine ⟨[nativeRequest L p prime now n], rfl, fun e he => ?_⟩
        rw [List.zip_cons_cons, List.zip_nil_right, List.mem_singleton] at he
        exact ⟨p, he ▸ rfl⟩
      · obtain ⟨rest, hcalls, hrest⟩ := ih (p.meet prime n)
          (calls ++ [nativeRequest L p prime now n])
        refine ⟨nativeRequest L p prime now n :: rest, ?_, fun e he => ?_⟩
        · rw [hcalls, List.append_assoc, List.singleton_append]
        · rw [List.zip_cons_cons, List.mem_cons] at he
          rcases he with rfl | he
          · exact ⟨p, rfl⟩
          · exact hrest e he

theorem mem_zip_dropLast {α β : Type} {l : List α} {l' : List β} {e : α × β}
    (h : e ∈ l.zip l'.dropLast) : e ∈ l.zip l' := by
  obtain ⟨i, hi⟩ := List.mem_iff_getElem?.mp h
  obtain ⟨hl, hl'⟩ := List.getElem?_zip_eq_some.mp hi
  rw [List.getElem?_dropLast] at hl'
  split_ifs at hl'
  exact List.mem_iff_getElem?.mpr ⟨i, List.getElem?_zip_eq_some.mpr ⟨hl, hl'⟩⟩

/-- **A call** for an event, out of an observation without samples, is that of a listed notification
of the event. -/
theorem handed_eq_some {L : Libs} {fails : ℕ → Bool} {p : Processor} {ob : Observation}
    {now : Instant} {id : String} {ms : ℤ} {q : Request} (hsamples : ob.samples = [])
    (h : handed L fails p ob now id ms = some q) :
    ∃ ns, ob.notifications = some ns ∧ ∃ n ∈ ns, n.id = id ∧ unixMilli n.timestamp = ms ∧
      ∃ (p' : Processor) (prime : Bool), q = nativeRequest L p' prime now n := by
  obtain ⟨⟨n, q'⟩, hfind, rfl⟩ := Option.map_eq_some_iff.mp h
  have hkey : (n.id == id && unixMilli n.timestamp == ms) = true := by
    simpa using List.find?_some hfind
  obtain ⟨hid, hms⟩ := (Bool.and_eq_true _ _).mp hkey
  have hzip := List.mem_of_find?_eq_some hfind
  have hn : n ∈ ob.notifications.getD [] := List.mem_of_mem_filter (List.of_mem_zip hzip).1
  cases hns : ob.notifications with
  | none =>
    rw [hns] at hn
    cases hn
  | some ns =>
    rw [hns] at hn
    refine ⟨ns, rfl, n, hn, beq_iff_eq.mp hid, beq_iff_eq.mp hms, ?_⟩
    have hall : (n, q') ∈ ob.timed.zip (observe L fails p ob now).calls := by
      unfold Progress.made at hzip
      split_ifs at hzip
      · exact hzip
      · exact mem_zip_dropLast hzip
    have hcalls : ∃ prime, (observe L fails p ob now).calls = [] ∨
        (observe L fails p ob now).calls = (natives L fails prime now ns p []).calls := by
      have hfirst : ∃ prime, (observeNatives L fails p ob now).calls =
          (natives L fails prime now ns p []).calls := by
        unfold observeNatives
        rw [hns]
        dsimp only
        exact ⟨_, by split_ifs <;> rfl⟩
      obtain ⟨prime, hfirst⟩ := hfirst
      refine ⟨prime, ?_⟩
      unfold observe
      rw [hsamples]
      cases p.connected with
      | false => exact Or.inl rfl
      | true =>
        right
        simp only [samples, Bool.not_true, Bool.false_eq_true, if_false]
        split_ifs <;> exact hfirst
    obtain ⟨prime, hnil | hcalls⟩ := hcalls
    · rw [hnil, List.zip_nil_right] at hall
      cases hall
    · obtain ⟨rest, heq, hrest⟩ := natives_zip L fails prime now ns p []
      rw [hcalls, heq, List.nil_append] at hall
      have htimed : ob.timed = ns.filter (·.timestamp ≠ zeroTime) := by
        unfold Observation.timed
        rw [hns]
        rfl
      rw [htimed] at hall
      obtain ⟨p', hq⟩ := hrest _ hall
      exact ⟨p', prime, hq⟩

end Processor

end Push

namespace Dashboard

open Go

/-! ## What a slot says -/

namespace PlatformSlot

/-- The title of a slot's banner. -/
def title (ps : PlatformSlot) : String := trimSpace ps.description

/-- The body of a slot's banner. -/
def body (ps : PlatformSlot) : String := if ps.deviceName == "" then ps.service else ps.deviceName

/-- The banner of a slot is at the level of an information. -/
def informs (ps : PlatformSlot) : Bool := ps.hasType && ps.notifType == 2

/-- The fields of a slot are written in any order. -/
theorem updateField_comm (r : NativeScalars) (ps : PlatformSlot) {f g : PlatformField} (h : f ≠ g)
    (v w : Any) :
    (ps.updateField r f v).updateField r g w = (ps.updateField r g w).updateField r f v := by
  unfold updateField
  cases v.isNil <;> cases w.isNil <;> cases f <;> cases g <;> first
    | exact absurd rfl h
    | (simp only [Bool.false_eq_true, if_false, if_true, clearField, setType]; repeat' split) <;>
        rfl

/-- A banner that is shown, and its level. -/
theorem toNotification_spec {ps : PlatformSlot} {n : Notification}
    (h : ps.toNotification = some n) :
    ps.title ≠ "" ∧ n.id = ps.bannerID ∧ n.title = ps.title ∧ n.body = ps.body ∧
      n.source = "victron" ∧ n.ts = ps.dateTime ∧
      n.level = if ps.informs then "info" else
        if ps.hasType && ps.notifType == 0 then "warning" else "alarm" := by
  unfold toNotification at h
  by_cases hcond : (ps.acknowledged || trimSpace ps.description == "") = true
  · rw [if_pos hcond] at h
    cases h
  rw [if_neg hcond] at h
  rw [Bool.not_eq_true, Bool.or_eq_false_iff] at hcond
  obtain rfl := Option.some.inj h
  refine ⟨beq_eq_false_iff_ne.mp hcond.2, rfl, rfl, rfl, rfl, rfl, ?_⟩
  unfold informs
  cases ps.hasType with
  | false => rfl
  | true =>
    by_cases hzero : ps.notifType = 0
    · simp [hzero]
    · simp [hzero]

/-- The levels of an event. -/
theorem level_iff_informs {ps : PlatformSlot} {n : Notification} (h : ps.toNotification = some n) :
    n.level = "warning" ∨ n.level = "alarm" ↔ ps.informs = false := by
  obtain ⟨-, -, -, -, -, -, hlevel⟩ := toNotification_spec h
  rw [hlevel]
  cases ps.informs with
  | true =>
    rw [if_pos rfl]
    decide
  | false =>
    rw [if_neg Bool.false_ne_true]
    cases (ps.hasType && ps.notifType == 0) <;> decide

/-- The banner of a slot that is not acknowledged. -/
theorem exists_toNotification {ps : PlatformSlot} (h : ps.title ≠ "") :
    ∃ n, ({ ps with acknowledged := false } : PlatformSlot).toNotification = some n := by
  have hne : (trimSpace ps.description == "") = false := beq_eq_false_iff_ne.mpr h
  unfold toNotification
  dsimp only
  rw [hne]
  exact ⟨_, rfl⟩

end PlatformSlot

/-- The payload of a call has the texts of a slot, and the slot is at the level of an event. -/
def Own (L : Push.Libs) (ps : PlatformSlot) (q : Push.Request) : Prop :=
  ∃ n occurred observed,
    ({ ps with acknowledged := false } : PlatformSlot).toNotification = some n ∧
    (n.level = "warning" ∨ n.level = "alarm") ∧
    q.payload = Push.makePayload L "native" "victron" n.id n.title n.body occurred observed

theorem own_iff {L : Push.Libs} {ps : PlatformSlot} {q : Push.Request} :
    Own L ps q ↔ ps.title ≠ "" ∧ ps.informs = false ∧ ∃ occurred observed, q.payload =
      Push.makePayload L "native" "victron" ps.bannerID ps.title ps.body occurred observed := by
  constructor
  · rintro ⟨n, occurred, observed, hn, hlevel, hq⟩
    obtain ⟨htitle, hid, ht, hb, -⟩ := PlatformSlot.toNotification_spec hn
    rw [hid, ht, hb] at hq
    exact ⟨htitle, (PlatformSlot.level_iff_informs hn).mp hlevel, occurred, observed, hq⟩
  · rintro ⟨htitle, hlevel, occurred, observed, hq⟩
    obtain ⟨n, hn⟩ := PlatformSlot.exists_toNotification htitle
    obtain ⟨-, hid, ht, hb, -⟩ := PlatformSlot.toNotification_spec hn
    refine ⟨n, occurred, observed, hn, (PlatformSlot.level_iff_informs hn).mpr hlevel, ?_⟩
    rw [hid, ht, hb]
    exact hq

/-! ## The leaves of an event -/

/-- An event of a slot: the values of its leaves, as they are decoded. -/
structure SlotEvent where
  inst : ℕ
  slot : ℕ
  value : PlatformField → Any

/-- The leaf messages of an event, and what was handed over for it: the call, and the slot and the
leaves to come at that time. -/
structure Taken where
  request : Push.Request
  slot : PlatformSlot
  pending : List PlatformField

namespace SlotEvent

/-- The leaves of an event. -/
def fields : List PlatformField := [.description, .deviceName, .service, .dateTime, .type]

/-- The slot of an event. -/
def key (ev : SlotEvent) : ℕ × ℕ := (ev.inst, ev.slot)

/-- The identifier of its banner. -/
def bannerID (ev : SlotEvent) : String :=
  ({ inst := ev.inst, slot := ev.slot } : PlatformSlot).bannerID

/-- The time of an event in milliseconds. -/
def time (ev : SlotEvent) (r : NativeScalars) (parse : String → Push.Instant) : ℤ :=
  Push.unixMilli (parse
  (({ inst := ev.inst, slot := ev.slot } : PlatformSlot).updateField r .dateTime
    (ev.value .dateTime)).dateTime)

/-- The slot once the leaves to come are read. -/
def complete (ev : SlotEvent) (r : NativeScalars) (pending : List PlatformField)
    (ps : PlatformSlot) :
    PlatformSlot :=
  pending.foldl (fun ps f => ps.updateField r f (ev.value f)) ps

/-- The leaves that are still to come when an event is handed over leave a description with the same
title in the payload, a body that is cut to the same body, and no level of an information. -/
structure Settled (r : NativeScalars) (ev : SlotEvent) (t : Taken) : Prop where
  title : .description ∈ t.pending →
    (t.slot.updateField r .description (ev.value .description)).title ≠ "" ∧
    Push.boundedText (t.slot.updateField r .description (ev.value .description)).title 120 =
      Push.boundedText t.slot.title 120
  body : .deviceName ∈ t.pending ∨ .service ∈ t.pending →
    t.request.payload.refit (ev.complete r t.pending t.slot).body = t.request.payload
  level : .type ∈ t.pending → (t.slot.updateField r .type (ev.value .type)).informs = false

section Complete

variable {ev : SlotEvent} {r : NativeScalars} {pending : List PlatformField} {f : PlatformField}

/-- A leaf that arrives is one that was to come. -/
theorem complete_erase (hf : f ∈ pending) (ps : PlatformSlot) :
    ev.complete r (pending.erase f) (ps.updateField r f (ev.value f)) =
    ev.complete r pending ps := by
  have hcomm : ∀ g ∈ pending, ∀ g' ∈ pending, ∀ z : PlatformSlot,
      (z.updateField r g (ev.value g)).updateField r g' (ev.value g') =
        (z.updateField r g' (ev.value g')).updateField r g (ev.value g) := by
    intro g _ g' _ z
    by_cases hg : g = g'
    · rw [hg]
    · exact PlatformSlot.updateField_comm r z hg _ _
  exact ((List.perm_cons_erase hf).foldl_eq' hcomm ps).symm

/-- Another field is written before or behind the leaves. -/
theorem complete_updateField (hf : f ∉ pending) (ps : PlatformSlot) (v : Any) :
    ev.complete r pending (ps.updateField r f v) =
    (ev.complete r pending ps).updateField r f v := by
  induction pending generalizing ps with
  | nil => rfl
  | cons g pending ih =>
    obtain ⟨hne, hf⟩ := not_or.mp (List.mem_cons.not.mp hf)
    show ev.complete r pending ((ps.updateField r f v).updateField r g (ev.value g)) = _
    rw [PlatformSlot.updateField_comm r ps hne]
    exact ih hf _

/-- What a leaf to come does not write is there already. -/
theorem complete_of_notMem {α : Type} (π : PlatformSlot → α)
    (hπ : ∀ g ∈ pending, ∀ ps v, π (ps.updateField r g v) = π ps) (ps : PlatformSlot) :
    π (ev.complete r pending ps) = π ps := by
  induction pending generalizing ps with
  | nil => rfl
  | cons g pending ih =>
    show π (ev.complete r pending (ps.updateField r g (ev.value g))) = _
    rw [ih (fun g' hg' => hπ g' (List.mem_cons_of_mem _ hg')), hπ g List.mem_cons_self]

end Complete

end SlotEvent

namespace PlatformSlot

variable {r : NativeScalars} {ps : PlatformSlot} {f : PlatformField} {v : Any}

theorem title_updateField (h : f ≠ .description) : (ps.updateField r f v).title = ps.title := by
  unfold updateField
  cases f <;> first
    | exact absurd rfl h
    | (simp only [clearField, setType, title]; repeat' split) <;> rfl

theorem body_updateField (h : f ≠ .deviceName) (h' : f ≠ .service) :
    (ps.updateField r f v).body = ps.body := by
  unfold updateField
  cases f <;> first
    | exact absurd rfl h
    | exact absurd rfl h'
    | (simp only [clearField, setType, body]; repeat' split) <;> rfl

theorem informs_updateField (h : f ≠ .type) : (ps.updateField r f v).informs = ps.informs := by
  unfold updateField
  cases f <;> first
    | exact absurd rfl h
    | (simp only [clearField, informs]; repeat' split) <;> rfl

theorem bannerID_updateField : (ps.updateField r f v).bannerID = ps.bannerID := by
  obtain ⟨hinst, hslot⟩ := updateField_key r ps f v
  unfold bannerID
  rw [hinst, hslot]

end PlatformSlot

/-- Only the five leaves of an event are in its payload. -/
theorem own_updateField {L : Push.Libs} {r : NativeScalars} {ps : PlatformSlot} {q : Push.Request}
    {f : PlatformField} (h : f ∉ SlotEvent.fields) (v : Any) :
    Own L (ps.updateField r f v) q ↔ Own L ps q := by
  have hne : ∀ g ∈ SlotEvent.fields, f ≠ g := fun g hg hfg => h (hfg ▸ hg)
  rw [own_iff, own_iff, PlatformSlot.title_updateField (hne _ (by decide)),
    PlatformSlot.body_updateField (hne _ (by decide)) (hne _ (by decide)),
    PlatformSlot.informs_updateField (hne _ (by decide)), PlatformSlot.bannerID_updateField]

namespace SlotEvent

section Settled

variable {ev : SlotEvent} {r : NativeScalars} {pending : List PlatformField} {ps : PlatformSlot}

/-- What one field of the completed slot decides. -/
theorem complete_of_mem {α : Type} (π : PlatformSlot → α) {f : PlatformField} (hf : f ∈ pending)
    (hnodup : pending.Nodup)
    (hπ : ∀ g, g ≠ f → ∀ (ps : PlatformSlot) v, π (ps.updateField r g v) = π ps) :
    π (ev.complete r pending ps) = π (ps.updateField r f (ev.value f)) := by
  rw [← complete_erase hf]
  refine complete_of_notMem π (fun g hg => hπ g ?_) _
  exact ((hnodup.mem_erase_iff).mp hg).1

theorem title_complete (hnodup : pending.Nodup) :
    (ev.complete r pending ps).title = if .description ∈ pending then
      (ps.updateField r .description (ev.value .description)).title else ps.title := by
  split_ifs with h
  · exact complete_of_mem PlatformSlot.title h hnodup
      fun g hg ps v => PlatformSlot.title_updateField hg
  · exact complete_of_notMem PlatformSlot.title
      (fun g hg ps v => PlatformSlot.title_updateField fun heq => h (heq ▸ hg)) ps

theorem informs_complete (hnodup : pending.Nodup) :
    (ev.complete r pending ps).informs = if .type ∈ pending then
      (ps.updateField r .type (ev.value .type)).informs else ps.informs := by
  split_ifs with h
  · exact complete_of_mem PlatformSlot.informs h hnodup
      fun g hg ps v => PlatformSlot.informs_updateField hg
  · exact complete_of_notMem PlatformSlot.informs
      (fun g hg ps v => PlatformSlot.informs_updateField fun heq => h (heq ▸ hg)) ps

theorem body_complete (h : ¬ (.deviceName ∈ pending ∨ .service ∈ pending)) :
    (ev.complete r pending ps).body = ps.body := by
  obtain ⟨hdevice, hservice⟩ := not_or.mp h
  exact complete_of_notMem PlatformSlot.body (fun g hg ps v => PlatformSlot.body_updateField
    (fun heq => hdevice (heq ▸ hg)) fun heq => hservice (heq ▸ hg)) ps

theorem bannerID_complete : (ev.complete r pending ps).bannerID = ps.bannerID :=
  complete_of_notMem PlatformSlot.bannerID (fun _ _ _ _ => PlatformSlot.bannerID_updateField) ps

/-- **One event.** What was handed over is what the completed slot would hand over, exactly if the
leaves to come leave it alone. -/
theorem own_iff_settled {L : Push.Libs} {t : Taken} {occurred observed : Push.Instant}
    (hnodup : t.pending.Nodup) (htitle : t.slot.title ≠ "") (hlevel : t.slot.informs = false)
    (hq : t.request.payload = Push.makePayload L "native" "victron" t.slot.bannerID t.slot.title
      t.slot.body occurred observed) :
    Own L (ev.complete r t.pending t.slot) t.request ↔ ev.Settled r t := by
  rw [own_iff, title_complete hnodup, informs_complete hnodup, bannerID_complete]
  constructor
  · rintro ⟨htitle', hlevel', occurred', observed', hq'⟩
    refine ⟨fun hd => ?_, fun _ => ?_, fun ht => ?_⟩
    · rw [if_pos hd] at htitle' hq'
      refine ⟨htitle', ?_⟩
      have hsame := congrArg Push.Payload.title (hq'.symm.trans hq)
      rw [Push.makePayload_title, Push.makePayload_title,
        if_neg (Push.boundedText_ne_empty htitle'),
        if_neg (Push.boundedText_ne_empty htitle)] at hsame
      exact hsame
    · rw [hq', Push.makePayload_refit]
    · rwa [if_pos ht] at hlevel'
  · rintro ⟨hdesc, hbody, htype⟩
    have htitle' : (if .description ∈ t.pending then
        (t.slot.updateField r .description (ev.value .description)).title else t.slot.title) ≠ "" ∧
        Push.boundedText (if .description ∈ t.pending then
          (t.slot.updateField r .description (ev.value .description)).title else t.slot.title) 120 =
          Push.boundedText t.slot.title 120 := by
      split_ifs with h
      · exact hdesc h
      · exact ⟨htitle, rfl⟩
    refine ⟨htitle'.1, ?_, occurred, observed, ?_⟩
    · split_ifs with h
      · exact htype h
      · exact hlevel
    · have hsame := Push.makePayload_congr_title L "native" "victron" t.slot.bannerID
        (ev.complete r t.pending t.slot).body occurred observed htitle'.2
      rw [hsame, ← Push.makePayload_refit L "native" "victron" t.slot.bannerID t.slot.body, ← hq]
      by_cases h : .deviceName ∈ t.pending ∨ .service ∈ t.pending
      · exact (hbody h).symm
      · rw [body_complete h, hq, Push.makePayload_refit]

end Settled

end SlotEvent

namespace Client

/-! ## The leaf of a message -/

/-- The update of a slot that an admitted message brings. -/
def platformOf (c : Client) (r : NativeScalars) (session : ℕ) : Message → Option PlatformUpdate
  | .native parts payload =>
    if c.admitsNative session parts payload then decodePlatformNotification r parts payload
      else none
  | _ => none

/-- The slot under a key; one that is not stored is empty. -/
def slotOf (c : Client) (k : ℕ × ℕ) : PlatformSlot :=
  (c.platformSlots.lookup k).getD { inst := k.1, slot := k.2 }

/-- What decodes as an update is routed as one. -/
theorem route_of_decode {r : NativeScalars} {parts : List String} {payload : Payload}
    {u : PlatformUpdate} (h : decodePlatformNotification r parts payload = some u) :
    ¬ parts.length = 3 ∧ parts.getD 2 "" = "platform" ∧
      hasInnerLevel parts "Notifications" = true := by
  unfold decodePlatformNotification at h
  split at h
  · next portal rest =>
    obtain ⟨k, hk, -⟩ := Option.bind_eq_some_iff.mp h
    unfold parsePlatformNotificationKey at hk
    split at hk
    · refine ⟨by simp, rfl, ?_⟩
      simp [hasInnerLevel]
    · cases hk
  · cases h

/-- A controller message leaves the slots alone. -/
theorem applyControllerMessage_slots {c c' : Client} {payload : Payload}
    {retained override : Bool} {session generation : ℕ} {now : Time}
    (h : c.applyControllerMessage payload retained session generation override now = some c') :
    c'.platformSlots = c.platformSlots := by
  rcases applyControllerMessage_cases h with rfl | ⟨data, c₁, -, -, hc₁, rfl⟩
  · rfl
  · show c₁.platformSlots = c.platformSlots
    rw [commitController_frame hc₁]

/-- A native message that brings no update leaves the slots alone. -/
theorem commitNative_slots {c c' : Client} {r : NativeScalars} {parts : List String}
    {payload : Payload} {retained : Bool} {now : Time}
    (hnone : decodePlatformNotification r parts payload = none)
    (h : c.commitNative r parts payload retained now = some c') :
    c'.platformSlots = c.platformSlots := by
  unfold commitNative at h
  split_ifs at h
  · exact Option.some.inj h ▸ rfl
  · rw [hnone] at h
    exact Option.some.inj h ▸ rfl
  · exact Option.some.inj h ▸ c.commitAlarm_platformSlots r parts payload
  · exact (commitDevice_sameBanners h).slots

/-- An update writes to its slot. -/
theorem slotOf_commitPlatform (c : Client) (r : NativeScalars) (u : PlatformUpdate) (k : ℕ × ℕ) :
    (c.commitPlatform r u).slotOf k =
      if k = (u.inst, u.slot) then (c.slotOf k).updateField r u.field u.value else c.slotOf k := by
  show ((c.platformSlots.insert (u.inst, u.slot) _).lookup k).getD _ = _
  by_cases hk : k = (u.inst, u.slot)
  · subst hk
    rw [if_pos rfl, AList.lookup_insert]
    rfl
  · rw [if_neg hk, AList.lookup_insert_ne hk]
    rfl

/-- **Delivery.** A message writes to the slot that its update is about. -/
theorem deliver_slotOf {c c' : Client} {r : NativeScalars} {session : ℕ} {retained : Bool}
    {m : Message} {now : Time} (h : c.deliver r session retained m now = some c') (k : ℕ × ℕ) :
    c'.slotOf k = match c.platformOf r session m with
      | some u =>
        if k = (u.inst, u.slot) then (c.slotOf k).updateField r u.field u.value else c.slotOf k
      | none => c.slotOf k := by
  have hslots : c'.platformSlots = c.platformSlots → c'.slotOf k = c.slotOf k := by
    intro heq
    unfold slotOf
    rw [heq]
  cases m with
  | native parts payload =>
    simp only [deliver] at h
    split_ifs at h with hsession
    · subst hsession
      rw [applyCerboMessage_eq] at h
      simp only [platformOf]
      split_ifs at h ⊢
      · cases hd : decodePlatformNotification r parts payload with
        | none =>
          have hsame := commitNative_slots hd h
          exact hslots hsame
        | some u =>
          obtain ⟨hlen, hplatform, hnotif⟩ := route_of_decode hd
          rw [commitNative, if_neg hlen, if_pos ⟨hplatform, hnotif⟩, hd] at h
          obtain rfl := Option.some.inj h
          exact slotOf_commitPlatform ({ c with portalID := parts.getD 1 "" } : Client) r u k
      · exact hslots (Option.some.inj h ▸ rfl)
    · have hadm : c.admitsNative session parts payload = false := by
        simp [admitsNative, hsession]
      simp only [platformOf, hadm, Bool.false_eq_true, if_false]
      exact hslots (Option.some.inj h ▸ rfl)
  | state payload =>
    simp only [deliver] at h
    split_ifs at h
    · exact hslots (applyControllerMessage_slots h)
    · exact hslots (Option.some.inj h ▸ rfl)
  | override payload =>
    simp only [deliver] at h
    split_ifs at h
    · exact hslots (applyControllerMessage_slots h)
    · exact hslots (Option.some.inj h ▸ rfl)
  | notification payload =>
    simp only [deliver] at h
    split_ifs at h
    · obtain rfl := Option.some.inj h
      refine hslots ?_
      unfold applyNotificationMessage
      cases decodeNotification payload with
      | none => rfl
      | some n =>
        dsimp only
        split_ifs <;> rfl
    · exact hslots (Option.some.inj h ▸ rfl)
  | portal p => exact hslots (Option.some.inj h ▸ (c.applyPortalMessage_sameBanners p _ _).slots)
  | camera p => exact hslots (Option.some.inj h ▸ (c.onCameraMessage_sameBanners p).slots)

/-- A rebuilt list has no banner of a slot but its own. -/
theorem banner_of_commitPlatform {c : Client} {r : NativeScalars} {u : PlatformUpdate}
    (hs : KeyedSlots c.platformSlots) {b : Notification}
    (hb : b ∈ (c.commitPlatform r u).banners.elems) (ps : PlatformSlot) (hid : b.id = ps.bannerID) :
    ((c.commitPlatform r u).slotOf (ps.inst, ps.slot)).toNotification = some b := by
  have hkeyed := keyedSlots_update hs r u
  have hbanners : (c.commitPlatform r u).banners.elems = Recent.last maxNotifications
      ((c.banners.elems.filter fun e => !hasPrefix e.id "victron-") ++
        ((c.commitPlatform r u).platformSlots.entries.map fun e => e.2).filterMap
          PlatformSlot.toNotification) := by
    show (State.field (State.set _ Field.notifications _) .notifications).elems = _
    rw [State.set_field_self, elems_capNotifications]
    rfl
  rw [hbanners] at hb
  rcases List.mem_append.mp (List.mem_of_mem_drop hb) with hother | hslot
  · have hnot := (List.mem_filter.mp hother).2
    rw [hid, ps.hasPrefix_bannerID] at hnot
    cases hnot
  · obtain ⟨ps', hps', hb'⟩ := List.mem_filterMap.mp hslot
    obtain ⟨e, he, rfl⟩ := List.mem_map.mp hps'
    obtain ⟨hinst, hnumber⟩ := PlatformSlot.key_of_bannerID
      ((PlatformSlot.id_of_toNotification hb').symm.trans hid)
    have hkey : e.1 = (ps.inst, ps.slot) := by rw [← hkeyed e he, hinst, hnumber]
    have hl : (c.commitPlatform r u).platformSlots.lookup (ps.inst, ps.slot) = some e.2 :=
      AList.mem_lookup_iff.mpr (hkey ▸ he)
    unfold slotOf
    rw [hl]
    exact hb'

end Client

/-! ## The run -/

/-- A run on LAN in which the leaves of an event are delivered: the leaves still to come, and what
was handed over for the event first. -/
structure Delivering where
  push : Pushing
  pending : List PlatformField
  taken : Option Taken

namespace Delivering

/-- The leaves still to come behind an event of the run. -/
def pendingAfter (r : NativeScalars) (ev : SlotEvent) (s : Delivering) :
    LanEvent → List PlatformField
  | .deliver session _ m =>
    match s.push.lan.client.platformOf r session m with
    | some u => if ev.key = (u.inst, u.slot) then s.pending.erase u.field else s.pending
    | none => s.pending
  | _ => s.pending

/-- The call that an event of the run makes for the event of the slot. -/
def handedAfter (L : Push.Libs) (r : NativeScalars) (parse : String → Push.Instant) (ev : SlotEvent)
    (s : Delivering) (i : PushInput) : LanEvent → Option Push.Request
  | .deliver session retained m =>
    (s.push.lan.client.pushOf r parse session retained m s.push.lan.now).bind fun ob =>
      s.push.processor.handed L i.fails ob i.now ev.bannerID (ev.time r parse)
  | _ => none

/-- One event. -/
def step (L : Push.Libs) (r : NativeScalars) (parse : String → Push.Instant) (ev : SlotEvent)
    (s : Delivering) (e : LanEvent × PushInput) : Option Delivering :=
  (s.push.step L r parse e).map fun push =>
    { push
      pending := s.pendingAfter r ev e.1
      taken := s.taken.or ((s.handedAfter L r parse ev e.2 e.1).map fun q =>
        ⟨q, push.lan.client.slotOf ev.key, s.pendingAfter r ev e.1⟩) }

/-- The start: any state of a run with the processor, with all leaves still to come. -/
def Init (L : Push.Libs) (r : NativeScalars) (parse : String → Push.Instant) (s : Delivering) :
    Prop :=
  Transition.Reachable (Pushing.step L r parse) (fun _ _ => True) Pushing.Init s.push ∧
    s.pending = SlotEvent.fields ∧ s.taken = none

/-- The event is delivered: the connection stays, what writes to a leaf of the event in the slot is
the leaf of the event, once, and no other banner is under the identifier of the slot when a
controller notification arrives. -/
def Delivers (r : NativeScalars) (ev : SlotEvent) (s : Delivering) : LanEvent × PushInput → Prop
  | (.deliver session _ m, _) =>
    (∀ u ∈ s.push.lan.client.platformOf r session m, ev.key = (u.inst, u.slot) →
      u.field ∈ SlotEvent.fields → u.field ∈ s.pending ∧ u.value = ev.value u.field) ∧
    ∀ n ∈ m.notification?, ∀ b ∈ (s.push.lan.client.commitNotification n).banners.elems,
      b.id = ev.bannerID → (s.push.lan.client.slotOf ev.key).toNotification = some b
  | (.lost, _) | (.subscribe _, _) => False
  | _ => True

/-- What was handed over is that of the completed slot, exactly if the leaves still to come at that
time left it alone. -/
structure Inv (L : Push.Libs) (r : NativeScalars) (ev : SlotEvent) (s : Delivering) : Prop where
  push : s.push.Inv
  nodup : s.pending.Nodup
  fields : s.pending ⊆ SlotEvent.fields
  own : ∀ t, s.taken = some t → t.request.prime = false →
    (Own L (ev.complete r s.pending (s.push.lan.client.slotOf ev.key)) t.request ↔ ev.Settled r t)

theorem inv_of_init {L : Push.Libs} {r : NativeScalars} {parse : String → Push.Instant}
    {ev : SlotEvent} {s : Delivering} (h : s.Init L r parse) : s.Inv L r ev := by
  obtain ⟨hreach, hpending, htaken⟩ := h
  refine ⟨hreach.invariant (I := Pushing.Inv) (fun _ hs => Pushing.inv_of_init hs)
    fun _ _ _ hi _ hs => Pushing.inv_step hi hs, ?_, ?_, fun t ht => ?_⟩
  · rw [hpending]
    decide
  · rw [hpending]
    exact List.Subset.refl _
  · rw [htaken] at ht
    cases ht

/-- **The list** in which an event is handed over shows the slot as the message leaves it. -/
theorem banner_of_pushOf {r : NativeScalars} {parse : String → Push.Instant} {ev : SlotEvent}
    {s : Delivering} (hs : KeyedSlots s.push.lan.client.platformSlots) {session : ℕ}
    {retained : Bool}
    {m : Message} {i : PushInput} (hok : s.Delivers r ev (.deliver session retained m, i))
    {c' : Client} (hc : s.push.lan.client.deliver r session retained m s.push.lan.now = some c')
    {ob : Push.Observation}
    (hob : s.push.lan.client.pushOf r parse session retained m s.push.lan.now = some ob)
    {ns : List Push.Native} (hns : ob.notifications = some ns) {n : Push.Native} (hn : n ∈ ns)
    (hid : n.id = ev.bannerID) :
    ob.samples = [] ∧ ∃ b, (c'.slotOf ev.key).toNotification = some b ∧
      n = nativePushNotification parse b := by
  have hslot := Client.deliver_slotOf hc ev.key
  unfold Client.pushOf at hob
  split_ifs at hob with hcur
  cases m with
  | native parts payload =>
    dsimp only at hob
    split_ifs at hob with hadm
    unfold Client.nativePush at hob
    split_ifs at hob with h₁ h₂ h₃
    · obtain ⟨u, hu, rfl⟩ := Option.map_eq_some_iff.mp hob
      obtain rfl := Option.some.inj hns
      obtain ⟨b, hb, rfl⟩ := List.mem_map.mp hn
      have hown := Client.banner_of_commitPlatform (c := { s.push.lan.client with
        portalID := parts.getD 1 "" }) hs hb { inst := ev.inst, slot := ev.slot } hid
      refine ⟨rfl, b, ?_, rfl⟩
      rw [Client.slotOf_commitPlatform] at hown
      rw [Client.platformOf, if_pos hadm, hu] at hslot
      rw [hslot]
      exact hown
    · obtain ⟨e, -, rfl⟩ := Option.map_eq_some_iff.mp hob
      cases hns
  | notification payload =>
    obtain ⟨n', hn', rfl⟩ := Option.map_eq_some_iff.mp hob
    obtain rfl := Option.some.inj hns
    obtain ⟨b, hb, rfl⟩ := List.mem_map.mp hn
    refine ⟨rfl, b, ?_, rfl⟩
    rw [hslot]
    exact hok.2 n' hn' b hb hid
  | state _ | override _ | portal _ | camera _ => cases hob

/-- **The call** that hands over an event for delivery. -/
theorem own_of_handedAfter {L : Push.Libs} {r : NativeScalars} {parse : String → Push.Instant}
    {ev : SlotEvent} {s : Delivering} (hs : KeyedSlots s.push.lan.client.platformSlots)
    {session : ℕ} {retained : Bool} {m : Message} {i : PushInput}
    (hok : s.Delivers r ev (.deliver session retained m, i)) {c' : Client}
    (hc : s.push.lan.client.deliver r session retained m s.push.lan.now = some c')
    {q : Push.Request} (hq : s.handedAfter L r parse ev i (.deliver session retained m) = some q)
    (hprime : q.prime = false) {pending : List PlatformField} (hnodup : pending.Nodup) :
    Own L (ev.complete r pending (c'.slotOf ev.key)) q ↔
      ev.Settled r ⟨q, c'.slotOf ev.key, pending⟩ := by
  obtain ⟨ob, hob, hhanded⟩ := Option.bind_eq_some_iff.mp hq
  have hsamples : ob.samples = [] := by
    obtain ⟨e, hfind, -⟩ := Option.map_eq_some_iff.mp hhanded
    have hmem := List.mem_of_mem_filter (List.of_mem_zip (List.mem_of_find?_eq_some hfind)).1
    have hid : e.1.id = ev.bannerID := by
      have hkey : (e.1.id == ev.bannerID && Push.unixMilli e.1.timestamp == ev.time r parse) =
          true := by simpa using List.find?_some hfind
      exact beq_iff_eq.mp ((Bool.and_eq_true _ _).mp hkey).1
    cases hns : ob.notifications with
    | none =>
      rw [hns] at hmem
      cases hmem
    | some ns =>
      rw [hns] at hmem
      exact (banner_of_pushOf hs hok hc hob hns hmem hid).1
  obtain ⟨ns, hns, n, hn, hid, -, p', prime, rfl⟩ := Push.Processor.handed_eq_some hsamples hhanded
  obtain ⟨-, b, hb, rfl⟩ := banner_of_pushOf hs hok hc hob hns hn hid
  obtain ⟨htitle, hbid, hbtitle, hbbody, hbsource, -, hblevel⟩ :=
    PlatformSlot.toNotification_spec hb
  have hinforms : (c'.slotOf ev.key).informs = false := by
    by_contra hno
    rw [Bool.not_eq_false] at hno
    rw [hno, if_pos rfl] at hblevel
    have hlevel : (nativePushNotification parse b).level = "info" := by
      show (if b.level = "alarm" then "error" else b.level) = "info"
      rw [hblevel, if_neg (by decide)]
    simp [Push.Processor.nativeRequest, hlevel] at hprime
  have hsource : (nativePushNotification parse b).source = "victron" := hbsource
  have hpayload : (Push.Processor.nativeRequest L p' prime i.now
      (nativePushNotification parse b)).payload = Push.makePayload L "native" "victron"
        (c'.slotOf ev.key).bannerID (c'.slotOf ev.key).title (c'.slotOf ev.key).body
        (nativePushNotification parse b).timestamp i.now := by
    show Push.makePayload L "native" (if (nativePushNotification parse b).source = "victron" then
      "victron" else "system") b.id b.title b.body (nativePushNotification parse b).timestamp
      i.now = _
    rw [if_pos hsource, hbid, hbtitle, hbbody]
  exact SlotEvent.own_iff_settled
    (t := ⟨Push.Processor.nativeRequest L p' prime i.now (nativePushNotification parse b),
      c'.slotOf ev.key, pending⟩) hnodup htitle hinforms hpayload

/-- A leaf that is delivered belongs to the completed slot already. -/
theorem own_pendingAfter {L : Push.Libs} {r : NativeScalars} {ev : SlotEvent} {s : Delivering}
    (h : s.Inv L r ev) {session : ℕ} {retained : Bool} {m : Message} {i : PushInput}
    (hok : s.Delivers r ev (.deliver session retained m, i)) {c' : Client}
    (hc : s.push.lan.client.deliver r session retained m s.push.lan.now = some c')
    (q : Push.Request) :
    Own L (ev.complete r (s.pendingAfter r ev (.deliver session retained m)) (c'.slotOf ev.key)) q ↔
      Own L (ev.complete r s.pending (s.push.lan.client.slotOf ev.key)) q := by
  have hslot := Client.deliver_slotOf hc ev.key
  cases hu : s.push.lan.client.platformOf r session m with
  | none =>
    have hpending : s.pendingAfter r ev (.deliver session retained m) = s.pending := by
      simp only [pendingAfter, hu]
    rw [hu] at hslot
    rw [hpending, hslot]
  | some u =>
    have hpending : s.pendingAfter r ev (.deliver session retained m) =
        if ev.key = (u.inst, u.slot) then s.pending.erase u.field else s.pending := by
      simp only [pendingAfter, hu]
    simp only [hu] at hslot
    rw [hpending, hslot]
    by_cases hkey : ev.key = (u.inst, u.slot)
    · rw [if_pos hkey, if_pos hkey]
      by_cases hf : u.field ∈ SlotEvent.fields
      · obtain ⟨hpending, hvalue⟩ := hok.1 u hu hkey hf
        rw [hvalue, SlotEvent.complete_erase hpending]
      · have hpending : u.field ∉ s.pending := fun hp => hf (h.fields hp)
        rw [List.erase_of_not_mem hpending, SlotEvent.complete_updateField hpending,
          own_updateField hf]
    · rw [if_neg hkey, if_neg hkey]

/-- **Step.** -/
theorem inv_step {L : Push.Libs} {r : NativeScalars} {parse : String → Push.Instant}
    {ev : SlotEvent}
    {s s' : Delivering} {e : LanEvent × PushInput} (h : s.Inv L r ev) (hok : s.Delivers r ev e)
    (hs : s.step L r parse ev e = some s') : s'.Inv L r ev := by
  obtain ⟨push, hpush, rfl⟩ := Option.map_eq_some_iff.mp hs
  have hpending : s.pendingAfter r ev e.1 = s.pending ∨
      ∃ f, s.pendingAfter r ev e.1 = s.pending.erase f := by
    unfold pendingAfter
    split
    · split
      · split_ifs
        · exact Or.inr ⟨_, rfl⟩
        · exact Or.inl rfl
      · exact Or.inl rfl
    · exact Or.inl rfl
  have hnodup : (s.pendingAfter r ev e.1).Nodup := by
    rcases hpending with heq | ⟨f, heq⟩
    · exact heq ▸ h.nodup
    · exact heq ▸ h.nodup.erase f
  have hfields : s.pendingAfter r ev e.1 ⊆ SlotEvent.fields := by
    rcases hpending with heq | ⟨f, heq⟩
    · exact heq ▸ h.fields
    · exact heq ▸ List.Subset.trans List.erase_subset h.fields
  refine ⟨Pushing.inv_step h.push hpush, hnodup, hfields, fun t ht hprime => ?_⟩
  obtain ⟨e, i⟩ := e
  obtain ⟨lan, hlan, rfl⟩ := Option.map_eq_some_iff.mp hpush
  have hkept : ∀ c' : Client, lan.client = c' →
      c'.platformSlots = s.push.lan.client.platformSlots →
      s.pendingAfter r ev e = s.pending → s.handedAfter L r parse ev i e = none →
      (Own L (ev.complete r (s.pendingAfter r ev e) (lan.client.slotOf ev.key)) t.request ↔
        ev.Settled r t) := by
    rintro c' rfl hslots hpend hnone
    rw [hnone, Option.map_none, Option.or_none] at ht
    have hslot : lan.client.slotOf ev.key = s.push.lan.client.slotOf ev.key := by
      unfold Client.slotOf
      rw [hslots]
    rw [hpend, hslot]
    exact h.own t ht hprime
  cases e with
  | deliver session retained m =>
    have hbound : session ∈ s.push.lan.bound := by
      by_contra hno
      rw [Lan.step, if_neg hno] at hlan
      cases hlan
    rw [Lan.step, if_pos hbound] at hlan
    obtain ⟨c', hc', rfl⟩ := Option.map_eq_some_iff.mp hlan
    cases htaken : s.taken with
    | some t₀ =>
      rw [htaken, Option.some_or] at ht
      rw [← Option.some.inj ht] at hprime ⊢
      exact (own_pendingAfter h hok hc' _).trans (h.own t₀ htaken hprime)
    | none =>
      rw [htaken, Option.none_or] at ht
      obtain ⟨q, hq, rfl⟩ := Option.map_eq_some_iff.mp ht
      exact own_of_handedAfter h.push.slots hok hc' hq hprime hnodup
  | tick ms =>
    obtain rfl := Option.some.inj hlan
    exact hkept _ rfl rfl rfl rfl
  | opened =>
    obtain rfl := Option.some.inj hlan
    exact hkept _ rfl rfl rfl rfl
  | expire =>
    obtain ⟨c', hc', rfl⟩ := Option.map_eq_some_iff.mp hlan
    exact hkept c' rfl (Client.expireOptionalTelemetry_sameBanners hc').slots rfl rfl
  | lost => exact hok.elim
  | subscribe o => exact hok.elim

/-- **Slot events.** In every run in which the five leaves of an event are delivered in some order,
to a slot of any content, an event that is handed over for delivery has the texts and the level of
the completed slot exactly if the leaves that were still to come when it was handed over left them
alone.

**Proof sketch.** The leaves are written in any order, so the slot together with the leaves still to
come stays the completed slot from the first leaf to the last. -/
theorem own_iff_of_reachable {L : Push.Libs} {r : NativeScalars} {parse : String → Push.Instant}
    {ev : SlotEvent} {s : Delivering}
    (h : Transition.Reachable (step L r parse ev) (Delivers r ev) (Init L r parse) s)
    (hdone : s.pending = []) {t : Taken} (ht : s.taken = some t)
    (hprime : t.request.prime = false) :
    Own L (s.push.lan.client.slotOf ev.key) t.request ↔ ev.Settled r t := by
  have hinv := h.invariant (I := Inv L r ev) (fun _ hs => inv_of_init hs)
    fun _ _ _ hi hok hs => inv_step hi hok hs
  have hown := hinv.own t ht hprime
  rw [hdone] at hown
  exact hown

/-! ## Two runs -/

/-- Equality of the scalars in a leaf. -/
def sameScalar : Any → Any → Bool
  | .nil, .nil => true
  | .bool b, .bool b' => b == b'
  | .number n, .number n' => n == n'
  | .string s, .string s' => s == s'
  | _, _ => false

theorem eq_of_sameScalar {v w : Any} (h : sameScalar v w = true) : v = w := by
  unfold sameScalar at h
  split at h
  · rfl
  · rw [beq_iff_eq.mp h]
  · rw [beq_iff_eq.mp h]
  · rw [beq_iff_eq.mp h]
  · cases h

/-- A check that an event without controller notifications delivers. -/
def delivers (r : NativeScalars) (ev : SlotEvent) (s : Delivering) : LanEvent × PushInput → Bool
  | (.deliver session _ m, _) => m.notification?.isNone &&
    (s.push.lan.client.platformOf r session m).all fun u =>
      s.pending.contains u.field && sameScalar u.value (ev.value u.field)
  | (.lost, _) | (.subscribe _, _) => false
  | _ => true

theorem delivers_spec {r : NativeScalars} {ev : SlotEvent} {s : Delivering}
    {e : LanEvent × PushInput} (h : s.delivers r ev e = true) : s.Delivers r ev e := by
  obtain ⟨e, i⟩ := e
  cases e with
  | deliver session retained m =>
    obtain ⟨hnone, hall⟩ := (Bool.and_eq_true _ _).mp h
    refine ⟨fun u hu _ _ => ?_, fun n hn => ?_⟩
    · have hleaf := (Option.all_eq_true _ _).mp hall u hu
      obtain ⟨hpending, hvalue⟩ := (Bool.and_eq_true _ _).mp hleaf
      exact ⟨List.contains_iff_mem.mp hpending, eq_of_sameScalar hvalue⟩
    · rw [Option.isNone_iff_eq_none.mp hnone] at hn
      cases hn
  | lost | subscribe o => cases h
  | tick _ | expire | opened => trivial

/-- Readers that take texts as times and the literals 0, 1 and 2 as levels. -/
def eventScalars : NativeScalars :=
  { Alarming.literalLevels with time := fun v => v.string?.getD "" }

/-- A time that is read as an instant. -/
def eventTime (text : String) : Push.Instant :=
  if text = "now" then Push.Service.sampleNow else Push.zeroTime

/-- A warning of a fan in the third slot. -/
def fanEvent : SlotEvent :=
  { inst := 0
    slot := 3
    value := fun
      | .description => .string "Overheated"
      | .deviceName => .string "Fan"
      | .service => .string "fan"
      | .dateTime => .string "now"
      | .type => .number (.ofInt 1)
      | _ => .nil }

/-- A leaf of that event as a message. -/
def fanLeaf (name : String) (value : Json) : LanEvent × PushInput :=
  (.deliver 1 false (.native ["N", "c0", "platform", "0", "Notifications", "3", name]
    (.json (.obj [("value", value)]))), ⟨Push.Service.sampleNow, none, fun _ => false⟩)

/-- The leaves of that event. -/
def fanDescription : LanEvent × PushInput := fanLeaf "Description" (.str "Overheated")

@[inherit_doc fanDescription]
def fanDeviceName : LanEvent × PushInput := fanLeaf "DeviceName" (.str "Fan")

@[inherit_doc fanDescription]
def fanService : LanEvent × PushInput := fanLeaf "Service" (.str "fan")

@[inherit_doc fanDescription]
def fanDateTime : LanEvent × PushInput := fanLeaf "DateTime" (.str "now")

@[inherit_doc fanDescription]
def fanType : LanEvent × PushInput := fanLeaf "Type" (.num (.ofInt 1))

/-- The step of a run with those readers. -/
def fanStep : Delivering → LanEvent × PushInput → Option Delivering :=
  step Push.Service.sampleLibs eventScalars eventTime fanEvent

/-- A client on LAN that connects. -/
def connecting : List (LanEvent × PushInput) :=
  [(.opened, ⟨0, none, fun _ => false⟩), (.subscribe ⟨true, true⟩,
    ⟨Push.Service.sampleNow - Push.seconds 20, some "epoch", fun _ => false⟩)]

/-- The client behind it. -/
def connectedPush : Pushing :=
  (Transition.run (Pushing.step Push.Service.sampleLibs eventScalars eventTime)
    ⟨Lan.configured, {}⟩ connecting).getD ⟨Lan.configured, {}⟩

theorem reachable_connectedPush : Transition.Reachable
    (Pushing.step Push.Service.sampleLibs eventScalars eventTime) (fun _ _ => True) Pushing.Init
    connectedPush := by
  have hinit : Pushing.Init ⟨Lan.configured, {}⟩ := ⟨Lan.init_configured, rfl⟩
  have hsome : (Transition.run (Pushing.step Push.Service.sampleLibs eventScalars eventTime)
      ⟨Lan.configured, {}⟩ connecting).isSome = true := by decide
  have hrun : Transition.run (Pushing.step Push.Service.sampleLibs eventScalars eventTime)
      ⟨Lan.configured, {}⟩ connecting = some connectedPush := by
    obtain ⟨s, hs⟩ := Option.isSome_iff_exists.mp hsome
    unfold connectedPush
    rw [hs]
    rfl
  exact (Transition.Reachable.start hinit).of_run
    (Transition.Allowed.of_forall (fun _ _ => trivial) _) hrun

/-- The delivery of the event to an empty slot. -/
def fanStart : Delivering := ⟨connectedPush, SlotEvent.fields, none⟩

theorem init_fanStart : fanStart.Init Push.Service.sampleLibs eventScalars eventTime :=
  ⟨reachable_connectedPush, rfl, rfl⟩

/-- The event was handed over for delivery with a payload of a kind, and all its leaves are there.
-/
def handedOver (check : Push.Payload → Bool) (s : Delivering) : Bool :=
  s.pending == [] && (s.push.lan.client.slotOf fanEvent.key).body == "Fan" &&
    s.taken.any fun t => !t.request.prime && check t.request.payload

/-- A run of those leaves that hands over the event. -/
theorem exists_handedOver (check : Push.Payload → Bool) (es : List (LanEvent × PushInput))
    (hok : Transition.Allowed fanStep (fun s e => s.delivers eventScalars fanEvent e = true)
      fanStart es) (hrun : (Transition.run fanStep fanStart es).any (handedOver check) = true) :
    ∃ s : Delivering, ∃ t, Transition.Reachable fanStep (Delivers eventScalars fanEvent)
      (Init Push.Service.sampleLibs eventScalars eventTime) s ∧ s.pending = [] ∧ s.taken = some t ∧
      t.request.prime = false ∧ (s.push.lan.client.slotOf fanEvent.key).body = "Fan" ∧
      check t.request.payload = true := by
  obtain ⟨s, hs, hp⟩ := Transition.Reachable.exists_of_run fanStep (Delivers eventScalars fanEvent)
    es (handedOver check) init_fanStart (hok.mono fun _ _ => delivers_spec) hrun
  unfold handedOver at hp
  rw [Bool.and_eq_true, Bool.and_eq_true] at hp
  obtain ⟨⟨hpending, hbody⟩, ht⟩ := hp
  obtain ⟨t, ht, hq⟩ := (Option.any_eq_true _ _).mp ht
  obtain ⟨hprime, hq⟩ := (Bool.and_eq_true _ _).mp hq
  exact ⟨s, t, hs, beq_iff_eq.mp hpending, ht, by simpa using hprime, beq_iff_eq.mp hbody, hq⟩

theorem own_iff_of_reachable_fan : ∃ s : Delivering, ∃ t, s.taken = some t ∧
    t.request.payload.body = "Fan" ∧
    (Own Push.Service.sampleLibs (s.push.lan.client.slotOf fanEvent.key) t.request ↔
      fanEvent.Settled eventScalars t) := by
  obtain ⟨s, t, hs, hpending, ht, hprime, -, hbody⟩ := exists_handedOver
    (fun p => p.body == "Fan") [fanType, fanDescription, fanDeviceName, fanService, fanDateTime]
    (by decide +kernel) (by decide +kernel)
  exact ⟨s, t, ht, beq_iff_eq.mp hbody, own_iff_of_reachable hs hpending ht hprime⟩

/-- The time and the severity arrive before the name of the device, and the event has no body. -/
theorem not_own_of_reachable_fan : ∃ s : Delivering, ∃ t,
    Transition.Reachable fanStep (Delivers eventScalars fanEvent)
      (Init Push.Service.sampleLibs eventScalars eventTime) s ∧ s.pending = [] ∧
    s.taken = some t ∧ t.request.prime = false ∧ t.request.payload.body = "" ∧
    ¬ Own Push.Service.sampleLibs (s.push.lan.client.slotOf fanEvent.key) t.request := by
  obtain ⟨s, t, hs, hpending, ht, hprime, hfan, hcheck⟩ := exists_handedOver
    (fun p => p.body == "" && (p.refit "Fan").body == "Fan")
    [fanDescription, fanDateTime, fanType, fanDeviceName, fanService] (by decide +kernel)
    (by decide +kernel)
  obtain ⟨hempty, hrefit⟩ := (Bool.and_eq_true _ _).mp hcheck
  refine ⟨s, t, hs, hpending, ht, hprime, beq_iff_eq.mp hempty, fun hown => ?_⟩
  obtain ⟨-, -, occurred, observed, hq⟩ := own_iff.mp hown
  have hsame : t.request.payload.refit "Fan" = t.request.payload := by
    rw [hq, hfan, Push.makePayload_refit]
  rw [hsame, beq_iff_eq.mp hempty] at hrefit
  exact absurd hrefit (by decide)

end Delivering

end Dashboard
