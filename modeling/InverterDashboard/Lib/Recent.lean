import Mathlib.Tactic

set_option relaxedAutoImplicit false
set_option autoImplicit false

/-!
# The most recent entries of a log

A bounded memory of a growing log keeps its last `n` entries. If an entry is appended only when it
is not among them, and they never repeat, then any two occurrences of the same entry are separated
by `n` distinct others.

## Main definitions

* `Recent.last n l` — the last `n` entries of `l`.
* `Recent.Spaced n l` — equal entries of `l` are separated by `n` distinct others.

## Main results

* `Recent.last_append_last` — a memory can be updated from itself and the new entries alone.
* `Recent.Spaced.append` — appending an entry that the memory does not hold keeps the log spaced.
-/

namespace Recent

variable {α : Type}

/-- The last `n` entries. -/
def last (n : ℕ) (l : List α) : List α := l.drop (l.length - n)

theorem last_of_length_le {n : ℕ} {l : List α} (h : l.length ≤ n) : last n l = l := by
  unfold last
  rw [Nat.sub_eq_zero_of_le h, List.drop_zero]

theorem length_last_le (n : ℕ) (l : List α) : (last n l).length ≤ n := by
  unfold last
  rw [List.length_drop]
  exact tsub_tsub_le

/-- Only a long enough end of the log matters. -/
theorem last_append_of_le {n : ℕ} (l : List α) {m : List α} (h : n ≤ m.length) :
    last n (l ++ m) = last n m := by
  unfold last
  have hlen : (l ++ m).length - n = l.length + (m.length - n) := by
    rw [List.length_append]
    omega
  rw [hlen, List.drop_append]
  simp

/-- The memory and the new entries determine the next memory. -/
theorem last_append_last (n : ℕ) (l m : List α) : last n (last n l ++ m) = last n (l ++ m) := by
  unfold last
  by_cases h : l.length ≤ n
  · rw [Nat.sub_eq_zero_of_le h, List.drop_zero]
  · have hlen : (l.drop (l.length - n) ++ m).length - n = m.length := by
      rw [List.length_append, List.length_drop]
      omega
    have hlen' : (l ++ m).length - n = (l.length - n) + m.length := by
      rw [List.length_append]
      omega
    have hdrop : (l ++ m).drop (l.length - n) = l.drop (l.length - n) ++ m := by
      rw [List.drop_append, Nat.sub_eq_zero_of_le (Nat.sub_le _ _), List.drop_zero]
    rw [hlen, hlen', ← hdrop, List.drop_drop, Nat.add_comm]

/-- An entry followed by fewer than `n` others is in the memory. -/
theorem mem_last {n : ℕ} (l : List α) (a : α) {m : List α} (h : m.length < n) :
    a ∈ last n (l ++ a :: m) := by
  unfold last
  have hle : (l ++ a :: m).length - n ≤ l.length := by
    rw [List.length_append, List.length_cons]
    omega
  rw [List.drop_append, Nat.sub_eq_zero_of_le hle, List.drop_zero]
  exact List.mem_append_right _ List.mem_cons_self

section Spaced

variable [DecidableEq α]

/-- Equal entries are separated by at least `n` distinct others. -/
def Spaced (n : ℕ) (l : List α) : Prop :=
  ∀ pre k mid post, l = pre ++ k :: (mid ++ k :: post) → n ≤ (mid.toFinset.erase k).card

theorem Spaced.nil (n : ℕ) : Spaced n ([] : List α) := by
  intro pre k mid post h
  simp at h

/-- An entry that is not among the last `n`, which are distinct, comes after `n` distinct others. -/
theorem card_of_notMem_last {n : ℕ} (base pre mid : List α) {k : α}
    (hnew : k ∉ last n (base ++ (pre ++ k :: mid)))
    (hnodup : (last n (base ++ (pre ++ k :: mid))).Nodup) : n ≤ (mid.toFinset.erase k).card := by
  rw [← List.append_assoc] at hnew hnodup
  have hlen : n ≤ mid.length := by
    by_contra hlt
    exact hnew (mem_last _ k (not_le.mp hlt))
  have hsplit : base ++ pre ++ k :: mid = base ++ pre ++ [k] ++ mid := by simp
  rw [hsplit, last_append_of_le _ hlen] at hnew hnodup
  have hsub : (last n mid).toFinset ⊆ mid.toFinset.erase k := by
    intro x hx
    rw [List.mem_toFinset] at hx
    refine Finset.mem_erase.mpr ⟨?_, List.mem_toFinset.mpr (List.mem_of_mem_drop hx)⟩
    rintro rfl
    exact hnew hx
  calc n = (last n mid).length := by
        unfold last
        rw [List.length_drop]
        omega
    _ = (last n mid).toFinset.card := (List.toFinset_card_of_nodup hnodup).symm
    _ ≤ (mid.toFinset.erase k).card := Finset.card_le_card hsub

/-- **Appending a forgotten entry.** Whatever stood before the log, an entry that the memory of both
does not hold may be appended.

**Proof sketch.** A pair of equal entries of the longer log either lies in the old log, or its
second member is the new entry; then the first is not among the last `n`, so these lie between. -/
theorem Spaced.append {n : ℕ} {l : List α} (h : Spaced n l) (base : List α) {k : α}
    (hnew : k ∉ last n (base ++ l)) (hnodup : (last n (base ++ l)).Nodup) :
    Spaced n (l ++ [k]) := by
  intro pre k' mid post heq
  rcases List.eq_nil_or_concat post with rfl | ⟨post', x, rfl⟩
  · have heq' : l ++ [k] = (pre ++ k' :: mid) ++ [k'] := by simpa using heq
    obtain ⟨rfl, hk⟩ := List.append_inj' heq' rfl
    obtain rfl : k = k' := by simpa using hk
    exact card_of_notMem_last base pre mid hnew hnodup
  · have heq' : l ++ [k] = (pre ++ k' :: (mid ++ k' :: post')) ++ [x] := by simpa using heq
    obtain ⟨rfl, -⟩ := List.append_inj' heq' rfl
    exact h pre k' mid post' rfl

/-- An entry of a spaced log does not come back while fewer than `n` distinct others followed. -/
theorem Spaced.ne_of_card_lt {n : ℕ} {pre mid : List α} {k k' : α}
    (h : Spaced n (pre ++ k :: mid ++ [k'])) (hlt : (mid.toFinset.erase k).card < n) : k' ≠ k := by
  rintro rfl
  have hle := h pre k' mid [] (by simp)
  omega

end Spaced

end Recent
