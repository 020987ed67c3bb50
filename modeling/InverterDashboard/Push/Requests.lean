import InverterDashboard.Push.Sender

set_option relaxedAutoImplicit false
set_option autoImplicit false

/-!
# What the dispatcher may send

The ledger balances: the last looks that succeeded and the attempts that are left make up at most
three for each admitted delivery, but for the one attempt that a worker is about to take away. A
request comes after a last look of its own, so there are no more of them.

## Main definitions

* `Push.Dispatcher.spending` — a worker is about to take an attempt of an identifier away.
* `Push.Dispatcher.Accounts` — the invariant of the ledger.

## Main results

* `Push.Dispatcher.Accounts.step` — every step keeps it.
* `Push.Dispatcher.safe_of_reachable` — the requests, the deliveries in flight and the number of
  requests, in every run.
-/

namespace Push

/-! ## The ledger alone -/

/-- No stretch has more last looks than three for each admitted delivery, nor more requests than
last looks, and nothing is counted for the stretches to come. -/
structure Ledger.Sound (l : Ledger) : Prop where
  checks : ∀ id g, l.checks id g ≤ 3 * l.admitted id g
  requests : ∀ id g, l.requests id g ≤ l.checks id g
  future : ∀ id g, l.generation id < g → l.admitted id g = 0 ∧ l.checks id g = 0

theorem Ledger.Sound.mutated {l : Ledger} (h : l.Sound) (old new : List Delivery) :
    (l.mutated old new).Sound := by
  refine ⟨fun id g => ?_, h.requests, fun id g hg => ?_⟩
  · refine (h.checks id g).trans (Nat.mul_le_mul_left 3 ?_)
    show l.admitted id g ≤ if g = l.generation id then _ else _
    split_ifs
    · exact Nat.le_add_right _ _
    · exact le_refl _
  · have hlt : l.generation id < g := by
      refine lt_of_le_of_lt ?_ hg
      show l.generation id ≤ if _ then _ else _
      split_ifs
      · exact Nat.le_succ _
      · exact le_refl _
    refine ⟨?_, (h.future id g hlt).2⟩
    show (if g = l.generation id then _ else l.admitted id g) = 0
    rw [if_neg (by omega)]
    exact (h.future id g hlt).1

/-- The balance of an identifier: `spent` is one when a worker is about to take an attempt away. -/
def Ledger.Balanced (l : Ledger) (id : String) (queue : List Delivery) (spent : Bool) : Prop :=
  l.checks id (l.generation id) + budget id queue ≤
    3 * l.admitted id (l.generation id) + spent.toNat

theorem Ledger.Balanced.mutated {l : Ledger} (hl : l.Sound) {id : String} {old new : List Delivery}
    {spent spent' : Bool} (h : l.Balanced id old spent)
    (hbudget : budget id new + spent.toNat ≤ budget id old +
      3 * ((withID id new).length - (withID id old).length) + spent'.toNat) :
    (l.mutated old new).Balanced id new spent' := by
  unfold Ledger.Balanced at h ⊢
  by_cases hnil : withID id new = []
  · -- the next stretch begins with nothing
    have hgen : (l.mutated old new).generation id = l.generation id + 1 := if_pos hnil
    have hadm : (l.mutated old new).admitted id (l.generation id + 1) =
        l.admitted id (l.generation id + 1) := if_neg (by omega)
    obtain ⟨hzero, hzero'⟩ := hl.future id (l.generation id + 1) (Nat.lt_succ_self _)
    have hchecks : (l.mutated old new).checks id (l.generation id + 1) = 0 := hzero'
    rw [hgen, hadm, hchecks, budget_of_nil hnil]
    omega
  · have hgen : (l.mutated old new).generation id = l.generation id := if_neg hnil
    have hadm : (l.mutated old new).admitted id (l.generation id) =
        l.admitted id (l.generation id) +
        ((withID id new).length - (withID id old).length) := if_pos rfl
    have hchecks : (l.mutated old new).checks id (l.generation id) =
        l.checks id (l.generation id) := rfl
    rw [hgen, hadm, hchecks]
    omega

/-- A mutation that adds or takes away deliveries: if the one that a worker is about to spend goes,
the budget goes down. -/
theorem budget_spent {id : String} {old new : List Delivery} (h : Shifted id old new)
    {spent spent' : Bool}
    (hspent : spent = true → spent' = true ∨ ∃ q ∈ old, q.id = id ∧ q.attempts < 3 ∧
      ∀ q' ∈ new, q'.id = id → q'.attempts ≠ q.attempts) :
    budget id new + spent.toNat ≤ budget id old +
      3 * ((withID id new).length - (withID id old).length) + spent'.toNat := by
  have hle := budget_shifted h
  cases spent with
  | false =>
    rw [Bool.toNat_false]
    omega
  | true =>
    rcases hspent rfl with rfl | ⟨q, hq, hid, hatt, hgone⟩
    · omega
    · have hdrop := (budget_dropped h hq hid hatt hgone).1
      rw [Bool.toNat_true]
      omega

/-- A mutation after which the store takes operations. -/
theorem Store.mutate_usable {L : Libs} {s : Store} {change : DiskState → Change}
    {fault : Option SaveFault} (h : (s.mutate L change fault).1.unusable = false) :
    s.unusable = false ∧
      ((change s.data).verdict ≠ .changed ∧ (s.mutate L change fault).1.data = s.data ∨
        (change s.data).verdict = .changed ∧
          (s.mutate L change fault).1.data = (change s.data).data) := by
  generalize hr : s.mutate L change fault = r at h
  have hcases := s.mutate_cases L change fault
  rw [hr] at hcases
  cases hcases with
  | refused hu => exact absurd (hu.symm.trans h) (by simp)
  | rejected hu hv => exact ⟨hu, Or.inl ⟨by rw [hv]; simp, rfl⟩⟩
  | unchanged hu hv => exact ⟨hu, Or.inl ⟨by rw [hv]; simp, rfl⟩⟩
  | unsaved _ _ _ => exact absurd h (by simp [Store.unusable])
  | saved hu hv _ => exact ⟨hu, Or.inr ⟨hv, rfl⟩⟩

/-- `finish` changes something when the delivery is queued. -/
theorem finishChange_changed {item : Delivery} {status : ℤ} {transient : Bool} {now : Instant}
    {data : DiskState}
    (h : (data.queue.any fun q => q.id = item.id ∧ q.attempts = item.attempts) = true) :
    (finishChange item status transient now data).verdict = .changed := by
  unfold finishChange
  rw [if_pos h]

namespace Dispatcher

variable {L : Libs} {about : About} {d d' : Dispatcher} {i : ℕ} {w w' : Worker}

/-! ## The invariant of the ledger -/

/-- A worker whose last look succeeded has not finished yet, and its delivery is still queued with
the same number of attempts. -/
def spending (d : Dispatcher) (id : String) : Bool :=
  d.workers.any fun w => decide (w.item.id = id) && w.phase.spends &&
    d.store.data.queue.any fun q => decide (q.id = id ∧ q.attempts = w.item.attempts)

theorem spending_iff {id : String} : d.spending id = true ↔
    ∃ w ∈ d.workers, w.item.id = id ∧ w.phase.spends = true ∧
      ∃ q ∈ d.store.data.queue, q.id = id ∧ q.attempts = w.item.attempts := by
  simp only [spending, List.any_eq_true, Bool.and_eq_true, decide_eq_true_eq, and_assoc]

/-- The ledger is sound, it balances while the store takes operations, and a worker between its last
look and its request has a last look left. -/
structure Accounts (d : Dispatcher) : Prop where
  sound : d.ledger.Sound
  balance : d.store.unusable = false → ∀ id, d.ledger.Balanced id d.store.data.queue (d.spending id)
  looked : ∀ w ∈ d.workers, w.phase.checked = true →
    d.ledger.requests w.item.id w.generation + 1 ≤ d.ledger.checks w.item.id w.generation

/-- A step that changes neither the data nor the ledger, and no worker stops spending. -/
theorem Accounts.quiet (h : d.Accounts) (hdata : d'.store.data = d.store.data)
    (hledger : d'.ledger = d.ledger)
    (husable : d'.store.unusable = false → d.store.unusable = false)
    (hspends : ∀ w ∈ d.workers, w.phase.spends = true →
      ∃ w' ∈ d'.workers, w'.item = w.item ∧ w'.phase.spends = true)
    (hlooked : ∀ w' ∈ d'.workers, w'.phase.checked = true →
      ∃ w ∈ d.workers, w.item = w'.item ∧ w.generation = w'.generation ∧ w.phase.checked = true) :
    d'.Accounts := by
  refine ⟨hledger ▸ h.sound, fun hu id => ?_, fun w' hw' hc => ?_⟩
  · have hbal := h.balance (husable hu) id
    rw [hledger, hdata]
    unfold Ledger.Balanced at hbal ⊢
    -- who was spending before still is
    have hmono : d.spending id = true → d'.spending id = true := by
      intro hs
      obtain ⟨w, hw, hid, hphase, hq⟩ := spending_iff.mp hs
      obtain ⟨w', hw', hitem, hphase'⟩ := hspends w hw hphase
      rw [← hitem] at hid hq
      rw [← hdata] at hq
      exact spending_iff.mpr ⟨w', hw', hid, hphase', hq⟩
    have hle : (d.spending id).toNat ≤ (d'.spending id).toNat := Bool.toNat_le_toNat hmono
    omega
  · obtain ⟨w, hw, hitem, hgen, hc'⟩ := hlooked w' hw' hc
    have hl := h.looked w hw hc'
    rw [hitem, hgen] at hl
    rw [hledger]
    exact hl

/-- The other workers stay. -/
theorem mem_set_of_ne (hw : d.workers[i]? = some w) {v : Worker} (hv : v ∈ d.workers)
    (hne : v.item.id ≠ w.item.id) : v ∈ d.workers.set i w' := by
  obtain ⟨j, hj⟩ := List.mem_iff_getElem?.mp hv
  refine List.mem_iff_getElem?.mpr ⟨j, ?_⟩
  rw [List.getElem?_set_ne]
  · exact hj
  · rintro rfl
    rw [hw] at hj
    exact hne (congrArg (fun w => w.item.id) (Option.some.inj hj)).symm

/-- A worker moves on, the data and the ledger stay as they are, and it does not stop spending. -/
theorem Accounts.move (h : d.Accounts) (hs : d.Safe about) (hw : d.workers[i]? = some w)
    (hworkers : d'.workers = d.workers.set i w') (hitem : w'.item = w.item)
    (hdata : d'.store.data = d.store.data) (hledger : d'.ledger = d.ledger)
    (husable : d'.store.unusable = false → d.store.unusable = false)
    (hspends : w.phase.spends = true → w'.phase.spends = true)
    (hchecked : w'.phase.checked = true → w.generation = w'.generation ∧ w.phase.checked = true) :
    d'.Accounts := by
  have hmem := List.mem_of_getElem? hw
  refine h.quiet hdata hledger husable (fun v hv hphase => ?_) (fun v hv hc => ?_)
  · rw [hworkers]
    by_cases hid : v.item.id = w.item.id
    · obtain rfl := List.inj_on_of_nodup_map hs.distinct hv hmem hid
      exact ⟨w', List.mem_set (List.getElem?_eq_some_iff.mp hw).1 w', hitem, hspends hphase⟩
    · exact ⟨v, mem_set_of_ne hw hv hid, rfl, hphase⟩
  · rw [hworkers] at hv
    rcases hs.mem_set hw hv with rfl | ⟨hv, -⟩
    · exact ⟨w, hmem, hitem.symm, (hchecked hc).1, (hchecked hc).2⟩
    · exact ⟨v, hv, rfl, rfl, hc⟩

/-- Either a worker is still about to spend an attempt, or the delivery is gone. -/
theorem spending_or_gone (hs : d.Safe about) {id : String}
    (hspends : ∀ w ∈ d.workers, w.item.id = id → w.phase.spends = true → w ∈ d'.workers)
    (h : d.spending id = true) :
    d'.spending id = true ∨ ∃ q ∈ d.store.data.queue, q.id = id ∧ q.attempts < 3 ∧
      ∀ q' ∈ d'.store.data.queue, q'.id = id → q'.attempts ≠ q.attempts := by
  obtain ⟨w, hw, hid, hphase, q, hq, hqid, hatt⟩ := spending_iff.mp h
  by_cases hstill : d'.spending id = true
  · exact Or.inl hstill
  · refine Or.inr ⟨q, hq, hqid, hatt ▸ (hs.workers w hw).2, fun q' hq' hid' hatt' => hstill ?_⟩
    exact spending_iff.mpr
      ⟨w, hspends w hw hid hphase, hid, hphase, q', hq', hid', hatt'.trans hatt⟩

/-- A mutation from elsewhere, and `pending`. -/
theorem Accounts.mutate (h : d.Accounts) (hs : d.Safe about) {op : Op}
    (hop : ∀ item status transient now, op ≠ .finish item status transient now)
    (fault : Option SaveFault) :
    (d.mutated (d.store.mutate L (op.change L) fault).1).Accounts := by
  refine ⟨h.sound.mutated _ _, fun hu id => ?_, h.looked⟩
  obtain ⟨hu₀, hdata⟩ := Store.mutate_usable hu
  refine (h.balance hu₀ id).mutated h.sound (budget_spent ?_ ?_)
  · show Shifted id d.store.data.queue (d.store.mutate L (op.change L) fault).1.data.queue
    rcases hdata with ⟨-, heq⟩ | ⟨hv, heq⟩
    · rw [heq]
      exact Shifted.refl _ _
    · rw [heq]
      exact Op.change_withID L hop hv id
  · exact spending_or_gone hs fun w hw _ _ => hw

/-- `finish`: the attempt that the worker has spent is taken away.

**Proof sketch.** For another identifier nothing but deliveries of a removed subscription goes. For
the worker's own the queue either does not hold its number of attempts any more, and then the worker
was not spending, or the budget goes down by one. -/
theorem Accounts.finish (h : d.Accounts) (hs : d.Safe about) (hw : d.workers[i]? = some w)
    {phase : Phase} (hidle : phase.registers = false) {status : ℤ} {transient : Bool}
    {now : Instant}
    (fault : Option SaveFault) :
    ((d.move i { w with phase := phase }).mutated
      (d.store.mutate L ((Op.finish w.item status transient now).change L) fault).1).Accounts := by
  have hmem := List.mem_of_getElem? hw
  refine ⟨h.sound.mutated _ _, fun hu id => ?_, fun v hv hc => ?_⟩
  · obtain ⟨hu₀, hdata⟩ := Store.mutate_usable hu
    refine (h.balance hu₀ id).mutated h.sound ?_
    show budget id (d.store.mutate L ((Op.finish w.item status transient now).change L)
      fault).1.data.queue + _ ≤ _ + 3 * ((withID id (d.store.mutate L
        ((Op.finish w.item status transient now).change L) fault).1.data.queue).length - _) + _
    by_cases hid : id = w.item.id
    · subst hid
      rcases hdata with ⟨hv, heq⟩ | ⟨hv, heq⟩
      · rw [heq]
        have hnot : d.spending w.item.id = false := by
          rw [← Bool.not_eq_true]
          intro hspend
          obtain ⟨v, hv', hid', -, q, hq, hqid, hatt⟩ := spending_iff.mp hspend
          obtain rfl := List.inj_on_of_nodup_map hs.distinct hv' hmem hid'
          refine hv (finishChange_changed ?_)
          exact List.any_eq_true.mpr ⟨q, hq, decide_eq_true ⟨hqid, hatt⟩⟩
        rw [hnot, Bool.toNat_false]
        omega
      · rw [heq]
        obtain ⟨hlt, hlen⟩ := budget_finish hv (hs.workers w hmem).2
        have hone := Bool.toNat_le (d.spending w.item.id)
        change budget w.item.id (finishChange w.item status transient now d.store.data).data.queue +
          _ ≤ _
        omega
    · refine budget_spent ?_ (spending_or_gone hs fun v hv hid' _ => ?_)
      · rcases hdata with ⟨-, heq⟩ | ⟨-, heq⟩
        · rw [heq]
          exact Shifted.refl _ _
        · rw [heq]
          exact finishChange_shifted hid
      · exact mem_set_of_ne hw hv (by rw [hid']; exact hid)
  · rcases hs.mem_set hw hv with rfl | ⟨hv, -⟩
    · rw [Phase.registers_of_checked hc] at hidle
      exact absurd hidle (by simp)
    · exact h.looked v hv hc

/-- The last look succeeds: it is counted, and the worker is about to spend an attempt. -/
theorem Accounts.recheck (h : d.Accounts) (hs : d.Safe about) (hw : d.workers[i]? = some w)
    (hphase : w.phase = .registered) {now : Instant} (hcurrent : d.store.current w.item now = true)
    (hstore : d'.store = d.store) (hworkers : d'.workers = d.workers.set i { w with
      phase := .rechecked
      checkedAt := now
      generation := d.ledger.generation w.item.id })
    (hledger : d'.ledger = { d.ledger with
      checks := Ledger.bump d.ledger.checks w.item.id (d.ledger.generation w.item.id) }) :
    d'.Accounts := by
  have hmem := List.mem_of_getElem? hw
  simp only [Store.current, Store.holds, Bool.and_eq_true, Bool.not_eq_true'] at hcurrent
  obtain ⟨⟨hu, hholds⟩, -⟩ := hcurrent
  obtain ⟨-, -, q, hq, hqid, hatt⟩ := DiskState.holds_iff.mp hholds
  -- the only worker with this identifier was not spending, and is now
  have hnot : d.spending w.item.id = false := by
    rw [← Bool.not_eq_true]
    intro hspend
    obtain ⟨v, hv, hid, hspends, -⟩ := spending_iff.mp hspend
    obtain rfl := List.inj_on_of_nodup_map hs.distinct hv hmem hid
    rw [hphase] at hspends
    exact absurd hspends (by decide)
  have hnow : d'.spending w.item.id = true := by
    rw [spending_iff, hworkers, hstore]
    exact ⟨_, List.mem_set (List.getElem?_eq_some_iff.mp hw).1 _, rfl, rfl, q, hq, hqid, hatt⟩
  have hbal := h.balance hu w.item.id
  unfold Ledger.Balanced at hbal
  rw [hnot, Bool.toNat_false] at hbal
  have hpos := budget_pos hq hqid (hatt ▸ (hs.workers w hmem).2)
  have hbump : ∀ id g, d.ledger.checks id g ≤
      Ledger.bump d.ledger.checks w.item.id (d.ledger.generation w.item.id) id g := by
    intro id g
    unfold Ledger.bump
    split_ifs <;> omega
  refine ⟨?_, fun _ id => ?_, fun v hv hc => ?_⟩
  · rw [hledger]
    refine ⟨fun id g => ?_, fun id g => (h.sound.requests id g).trans (hbump id g),
      fun id g hg => ⟨(h.sound.future id g hg).1, ?_⟩⟩
    · dsimp only [Ledger.bump]
      split_ifs with hcond
      · obtain ⟨rfl, rfl⟩ := hcond
        omega
      · exact h.sound.checks id g
    · dsimp only at hg ⊢
      rw [Ledger.bump, if_neg (by rintro ⟨rfl, rfl⟩; exact lt_irrefl _ hg)]
      exact (h.sound.future id g hg).2
  · rw [hledger, hstore]
    show Ledger.bump d.ledger.checks w.item.id (d.ledger.generation w.item.id) id
      (d.ledger.generation id) + budget id d.store.data.queue ≤
        3 * d.ledger.admitted id (d.ledger.generation id) + (d'.spending id).toNat
    by_cases hid : id = w.item.id
    · subst hid
      rw [hnow, Bool.toNat_true, Ledger.bump, if_pos ⟨rfl, rfl⟩]
      omega
    · rw [Ledger.bump, if_neg fun hc => hid hc.1]
      have hbal' := h.balance hu id
      unfold Ledger.Balanced at hbal'
      refine hbal'.trans (Nat.add_le_add_left (Bool.toNat_le_toNat fun hspend => ?_) _)
      obtain ⟨v, hv, hid', hspends, hq'⟩ := spending_iff.mp hspend
      rw [spending_iff, hworkers, hstore]
      exact ⟨v, mem_set_of_ne hw hv (by rw [hid']; exact hid), hid', hspends, hq'⟩
  · rw [hledger]
    rw [hworkers] at hv
    dsimp only
    rcases hs.mem_set hw hv with rfl | ⟨hv, -⟩
    · rw [Ledger.bump, if_pos ⟨rfl, rfl⟩]
      exact Nat.succ_le_succ (h.sound.requests _ _)
    · exact (h.looked v hv hc).trans (hbump _ _)

/-- A request is counted; the worker has used its last look. -/
theorem Accounts.hand (h : d.Accounts) (hs : d.Safe about) (hw : d.workers[i]? = some w)
    (hphase : w.phase = .cleared) :
    Accounts { d.move i { w with phase := .answered } with
      ledger := { d.ledger with
        requests := Ledger.bump d.ledger.requests w.item.id w.generation } } := by
  have hmem := List.mem_of_getElem? hw
  have hlooked := h.looked w hmem (by rw [hphase]; rfl)
  -- but for the ledger this is a move
  have hm : (d.move i { w with phase := .answered }).Accounts :=
    h.move hs hw rfl rfl rfl rfl id (fun _ => rfl) fun hc => absurd hc (by simp [Phase.checked])
  refine ⟨⟨h.sound.checks, fun id g => ?_, h.sound.future⟩, hm.balance, fun v hv hc => ?_⟩
  · show Ledger.bump d.ledger.requests w.item.id w.generation id g ≤ d.ledger.checks id g
    unfold Ledger.bump
    split_ifs with hcond
    · obtain ⟨rfl, rfl⟩ := hcond
      exact hlooked
    · exact h.sound.requests id g
  · rcases hs.mem_set hw hv with rfl | ⟨hv, hne⟩
    · exact absurd hc (by simp [Phase.checked])
    · show Ledger.bump d.ledger.requests w.item.id w.generation v.item.id v.generation + 1 ≤
        d.ledger.checks v.item.id v.generation
      rw [Ledger.bump, if_neg fun hcond => hne hcond.1]
      exact h.looked v hv hc

/-- **One step keeps the invariant of the ledger.** -/
theorem Accounts.step {e : Event} (h : d.Accounts) (hs : d.Safe about) (hstep : Stepped L d e d') :
    d'.Accounts := by
  have hsame : ∀ w ∈ d.workers, w.phase.spends = true →
      ∃ w' ∈ d.workers, w'.item = w.item ∧ w'.phase.spends = true := fun w hw hp => ⟨w, hw, rfl, hp⟩
  have hsame' : ∀ w ∈ d.workers, w.phase.checked = true → ∃ w' ∈ d.workers, w'.item = w.item ∧
      w'.generation = w.generation ∧ w'.phase.checked = true := fun w hw hp => ⟨w, hw, rfl, rfl, hp⟩
  cases hstep with
  | refused => exact h
  | @performed op op' fault hinternal hacc =>
    refine h.mutate hs (fun item status transient now heq => ?_) fault
    subst heq
    exact absurd hinternal (by simp [Op.internal])
  | closed =>
    refine h.quiet ?_ rfl (fun hu => ?_) hsame hsame'
    · show d.store.close.data = d.store.data
      unfold Store.close
      split_ifs <;> rfl
    · change d.store.close.unusable = false at hu
      unfold Store.close at hu
      split_ifs at hu
      · exact hu
      · exact absurd hu (by simp [Store.unusable])
  | stopped => exact h.quiet rfl rfl id hsame hsame'
  | expired => exact h.quiet rfl rfl id hsame hsame'
  | @ticked now fault =>
    have hm : (d.mutated (d.store.mutate L ((Op.pending now).change L) fault).1).Accounts :=
      h.mutate hs (by simp) fault
    exact ⟨hm.sound, hm.balance, hm.looked⟩
  | left _ => exact h.quiet rfl rfl id hsame hsame'
  | @spawned item rest hitems hfew hnew =>
    refine h.quiet rfl rfl id (fun w hw hp => ⟨w, List.mem_append_left _ hw, rfl, hp⟩)
      fun w hw hc => ?_
    rcases List.mem_append.mp hw with hw | hw
    · exact ⟨w, hw, rfl, rfl, hc⟩
    · obtain rfl := List.mem_singleton.mp hw
      exact absurd hc (by simp [Phase.checked])
  | idled hw hidle hspends =>
    refine h.move hs hw rfl rfl rfl rfl id hspends fun hc => ?_
    rw [Phase.registers_of_checked hc] at hidle
    exact absurd hidle (by simp)
  | registered hw hphase =>
    refine h.move hs hw rfl rfl rfl rfl id (fun hp => ?_) fun hc =>
      absurd hc (by simp [Phase.checked])
    rw [hphase] at hp
    exact absurd hp (by decide)
  | rechecked hw hphase hcurrent => exact h.recheck hs hw hphase hcurrent rfl rfl rfl
  | cleared hw hphase =>
    exact h.move hs hw rfl rfl rfl rfl id (fun _ => rfl) fun _ => ⟨rfl, by rw [hphase]; rfl⟩
  | handed hw hphase => exact h.hand hs hw hphase
  | finished hw hidle _ => exact h.finish hs hw hidle _
  | released hw hphase =>
    refine h.move hs hw rfl rfl rfl rfl id (fun hp => ?_) fun hc =>
      absurd hc (by simp [Phase.checked])
    rw [hphase] at hp
    exact absurd hp (by decide)
  | @removed i w hw hphase =>
    refine h.quiet rfl rfl id (fun v hv hp => ?_)
      fun v hv hc => ⟨v, (List.eraseIdx_sublist ..).subset hv, rfl, rfl, hc⟩
    refine ⟨v, List.mem_eraseIdx_iff_getElem?.mpr ?_, rfl, hp⟩
    obtain ⟨j, hj⟩ := List.mem_iff_getElem?.mp hv
    refine ⟨j, fun hij => ?_, hj⟩
    rw [hij, hw] at hj
    obtain rfl := Option.some.inj hj
    rw [hphase] at hp
    exact absurd hp (by decide)

/-! ## Every run -/

/-- The operations from elsewhere only queue named deliveries: no two events hash to one identifier.
-/
def Names (L : Libs) (about : About) (d : Dispatcher) : Event → Prop
  | .perform op _ => op.Names L about d.store.data
  | _ => True

/-- A process starts with a store whose queue has named deliveries. -/
def Start (L : Libs) (about : About) (d : Dispatcher) : Prop :=
  Init L d ∧ ∀ q ∈ d.store.data.queue, q.Named about

theorem Start.safe (h : Start L about d) : d.Safe about := by
  obtain ⟨⟨hinit⟩, hnames⟩ := h
  exact
    { queue := hnames
      items := fun q hq => absurd hq (by simp)
      workers := fun w hw => absurd hw (by simp)
      distinct := List.nodup_nil
      few := Nat.zero_le _
      trimmed := Or.inl ⟨rfl, rfl⟩
      covers := fun w hw => absurd hw (by simp) }

theorem Start.accounts (h : Start L about d) : d.Accounts := by
  obtain ⟨⟨hinit⟩, -⟩ := h
  rename_i s
  refine ⟨⟨fun id g => Nat.zero_le _, fun id g => le_refl _, fun id g hg => ⟨?_, rfl⟩⟩,
    fun _ id => ?_, fun w hw => absurd hw (by simp)⟩
  · exact if_neg (Nat.pos_iff_ne_zero.mp (Nat.zero_lt_of_lt hg))
  · -- what was queued at the start counts as admitted
    show 0 + budget id s.store.data.queue ≤
      3 * (if (0 : ℕ) = 0 then (withID id s.store.data.queue).length else 0) + _
    rw [if_pos rfl, Nat.zero_add]
    refine le_add_right ?_
    unfold budget
    rw [← List.length_map Delivery.left, Nat.mul_comm, ← smul_eq_mul]
    refine List.sum_le_card_nsmul _ 3 fun n hn => ?_
    obtain ⟨q, hq, rfl⟩ := List.mem_map.mp hn
    have hvalid := (Service.Sound.of_init hinit).data.deliveries q (mem_withID.mp hq).1
    simp only [Delivery.valid, Bool.and_eq_true, decide_eq_true_eq] at hvalid
    unfold Delivery.left
    omega

/-- **What the dispatcher may send.** In every run of the dispatcher, its workers and the operations
of the store: a request is handed over for an event that was young enough when it was last looked
at, and at that moment the store takes operations and has the delivery in order, or the request's
context is cancelled; at most two deliveries are in flight, no two with one identifier; and an
identifier has at most three requests for each of its deliveries that was admitted.

**Proof sketch.** Both invariants hold at the start and are kept by every step. A worker that may
hand its request over is between its last look and its request. -/
theorem safe_of_reachable
    (h : Transition.Reachable (step L) (Names L about) (Start L about) d) :
    (∀ i d', step L d (.hand i) = some d' → ∃ w, d.workers[i]? = some w ∧
      w.item.payload.current w.checkedAt = true ∧
      (d.store.holds w.item = true ∨ d.cancelled w = true)) ∧
    d.workers.length ≤ 2 ∧ (d.workers.map fun w => w.item.id).Nodup ∧
    ∀ id g, d.ledger.requests id g ≤ 3 * d.ledger.admitted id g := by
  have hinv : d.Safe about ∧ d.Accounts := by
    have hinit : ∀ d, Start L about d → d.Safe about ∧ d.Accounts :=
      fun d hd => ⟨hd.safe, hd.accounts⟩
    refine Transition.Reachable.invariant hinit ?_ h
    intro d e d' hd hok hstep
    have hstepped := step_stepped hstep
    refine ⟨hd.1.step (fun op fault he => ?_) hstepped, hd.2.step hd.1 hstepped⟩
    subst he
    exact hok
  obtain ⟨hsafe, haccounts⟩ := hinv
  refine ⟨fun i d' hstep => ?_, hsafe.few, hsafe.distinct, fun id g => ?_⟩
  · simp only [step] at hstep
    cases hw : d.workers[i]? with
    | none => simp [hw] at hstep
    | some w =>
      rw [hw] at hstep
      dsimp only at hstep
      split_ifs at hstep with hphase
      have hcovers := hsafe.covers w (List.mem_of_getElem? hw)
      have hchecked : w.phase.checked = true := by rw [hphase]; rfl
      refine ⟨w, rfl, hcovers.age hchecked, (hcovers.holds hchecked).imp_right fun hcancel => ?_⟩
      simpa [cancelled, Store.Cancels] using hcancel
  · exact (haccounts.sound.requests id g).trans (haccounts.sound.checks id g)

/-- What the identifier of the sample warning stands for. -/
def sampleAbout : About := fun _ =>
  ("native", "168cd2d59d77208396024219a6d9fa252a0f611dd98493a6912f5a5014d105ec", 1760000000000)

/-- The subscription is deleted between a worker's last look and its request: the request is handed
over with a cancelled context. -/
def handsCancelled (d : Dispatcher) : Bool :=
  (step Service.sampleLibs d (.hand 0)).isSome &&
    d.workers.all fun w => !d.store.holds w.item && d.cancelled w

/-- The dispatcher over a file with one queued warning. -/
def sampleDispatcher : Dispatcher where
  store := { data := Service.agedState, disk := Service.agedState }
  ledger :=
    { admitted := fun id g =>
        if g = 0 then (withID id Service.agedState.queue).length else 0 }

theorem safe_of_reachable_deleted :
    ∃ d d' : Dispatcher, ∃ w, step Service.sampleLibs d (.hand 0) = some d' ∧
      d.workers[0]? = some w ∧ w.item.payload.current w.checkedAt = true ∧
      d.store.holds w.item = false ∧ d.cancelled w = true ∧ d.workers.length ≤ 2 := by
  have hinit : Service.Init Service.sampleLibs
      { store := { data := Service.agedState, disk := Service.agedState } } :=
    Service.init_of_valid (by decide +kernel) (by decide +kernel)
  have hstart : Start Service.sampleLibs sampleAbout sampleDispatcher :=
    ⟨.intro hinit, by decide +kernel⟩
  obtain ⟨d, hreach, hp⟩ := Transition.Reachable.exists_of_run (step Service.sampleLibs)
    (Names Service.sampleLibs sampleAbout)
    [.tick Service.sampleNow none, .spawn, .look 0 Service.sampleNow, .register 0,
      .recheck 0 Service.sampleNow, .clear 0,
      .perform (.delete Service.sampleSubscription.endpoint) none] handsCancelled hstart
    ⟨trivial, fun _ _ => ⟨trivial, fun _ _ => ⟨trivial, fun _ _ => ⟨trivial, fun _ _ =>
      ⟨trivial, fun _ _ => ⟨trivial, fun _ _ => ⟨trivial, fun _ _ => trivial⟩⟩⟩⟩⟩⟩⟩
    (by decide +kernel)
  rw [handsCancelled, Bool.and_eq_true, List.all_eq_true] at hp
  obtain ⟨d', hstep⟩ := Option.isSome_iff_exists.mp hp.1
  obtain ⟨hhand, hfew, -, -⟩ := safe_of_reachable hreach
  obtain ⟨w, hw, hage, -⟩ := hhand 0 d' hstep
  have hall := hp.2 w (List.mem_of_getElem? hw)
  rw [Bool.and_eq_true, Bool.not_eq_true'] at hall
  exact ⟨d, d', w, hstep, hw, hage, hall.1, hall.2, hfew⟩

end Dispatcher

end Push
