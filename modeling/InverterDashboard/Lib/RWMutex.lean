import Mathlib.Data.Finset.Insert
import Mathlib.Tactic

set_option relaxedAutoImplicit false
set_option autoImplicit false

/-!
# A readers–writer lock

`sync.RWMutex` between threads that take the read side and threads that take the write side. The
lock carries its exclusion as a field, so no state with a writer and a reader can be built. An
operation that would block has no result.

## Main definitions

* `RWMutex` — the lock, `RWMutex.free` — the lock nobody holds.
* `RWMutex.rLock`, `rUnlock`, `lock`, `unlock` — the operations.

## Main results

* `RWMutex.not_mem_readers_of_writer` — no reader is inside while a writer is.
* `RWMutex.rLock_eq_some`, `lock_eq_some` — the inversions of the two acquisitions.
-/

/-- The lock between readers `ι` and writers `κ`. -/
structure RWMutex (ι κ : Type) where
  readers : Finset ι
  writer : Option κ
  excl : writer ≠ none → readers = ∅

namespace RWMutex

variable {ι κ : Type}

/-- The lock nobody holds. -/
def free : RWMutex ι κ := ⟨∅, none, fun h => absurd rfl h⟩

variable [DecidableEq ι]

/-- `RLock`: blocks while a writer holds the lock. -/
def rLock (m : RWMutex ι κ) (i : ι) : Option (RWMutex ι κ) :=
  if h : m.writer = none then some ⟨insert i m.readers, m.writer, fun hw => absurd h hw⟩ else none

/-- `RUnlock`. -/
def rUnlock (m : RWMutex ι κ) (i : ι) : RWMutex ι κ :=
  ⟨m.readers.erase i, m.writer, fun hw => by rw [m.excl hw, Finset.erase_empty]⟩

/-- `Lock`: blocks while anybody holds the lock. -/
def lock (m : RWMutex ι κ) (j : κ) : Option (RWMutex ι κ) :=
  if h : m.writer = none ∧ m.readers = ∅ then some ⟨m.readers, some j, fun _ => h.2⟩ else none

/-- `Unlock`. -/
def unlock (m : RWMutex ι κ) : RWMutex ι κ := ⟨m.readers, none, fun h => absurd rfl h⟩

omit [DecidableEq ι] in
/-- No reader is inside while a writer is. -/
theorem not_mem_readers_of_writer {m : RWMutex ι κ} {j : κ} (h : m.writer = some j) (i : ι) :
    i ∉ m.readers := by
  rw [m.excl (by rw [h]; simp)]
  exact Finset.notMem_empty i

/-- A reader that got in found no writer and is the only change. -/
theorem rLock_eq_some {m m' : RWMutex ι κ} {i : ι} (h : m.rLock i = some m') :
    m.writer = none ∧ m'.writer = none ∧ ∀ k, k ∈ m'.readers ↔ k = i ∨ k ∈ m.readers := by
  unfold rLock at h
  split_ifs at h with hw
  obtain rfl := Option.some.inj h
  exact ⟨hw, hw, fun k => Finset.mem_insert⟩

/-- The readers after one of them left. -/
theorem mem_rUnlock (m : RWMutex ι κ) (i k : ι) :
    k ∈ (m.rUnlock i).readers ↔ k ≠ i ∧ k ∈ m.readers := Finset.mem_erase

/-- A writer that got in found nobody. -/
theorem lock_eq_some {m m' : RWMutex ι κ} {j : κ} (h : m.lock j = some m') :
    m.writer = none ∧ m.readers = ∅ ∧ m'.writer = some j ∧ m'.readers = ∅ := by
  unfold lock at h
  split_ifs at h with hw
  obtain rfl := Option.some.inj h
  exact ⟨hw.1, hw.2, rfl, hw.2⟩

end RWMutex
