import InverterDashboard.Lib.Recent

set_option relaxedAutoImplicit false
set_option autoImplicit false

/-!
# Bounded lists of keyed entries

A bounded list of entries with distinct keys, the oldest first. An upsert removes the entry with
the key of the new one, puts the new one last, and drops the oldest entries beyond the bound.

## Main definitions

* `KeyedRing.IsRing key n l` — at most `n` entries with distinct keys.
* `KeyedRing.upsert key n l a` — the upsert.
* `KeyedRing.dropped key n l a` — the entries an upsert drops for the bound.

## Main results

* `KeyedRing.isRing_upsert` — an upsert keeps the keys distinct and restores the bound.
* `KeyedRing.mem_upsert_iff` — the entries after an upsert.
* `KeyedRing.dropped_cases` — in a ring, at most the oldest entry is dropped, and only for a new
  key in a full ring.
-/

namespace KeyedRing

open Recent

variable {α κ : Type}

/-- At most `n` entries, and no two with the same key. -/
structure IsRing (key : α → κ) (n : ℕ) (l : List α) : Prop where
  length : l.length ≤ n
  keys : (l.map key).Nodup

variable {key : α → κ} {n : ℕ} {l : List α} {a b : α}

/-- Entries may be left out. -/
theorem IsRing.sublist {l' : List α} (h : IsRing key n l) (hs : l'.Sublist l) :
    IsRing key n l' :=
  ⟨hs.length_le.trans h.length, h.keys.sublist (hs.map key)⟩

/-- The newest entries of a list with distinct keys. -/
theorem isRing_last (h : (l.map key).Nodup) : IsRing key n (last n l) :=
  ⟨length_last_le n l, h.sublist ((List.drop_sublist _ l).map key)⟩

section Upsert

variable [DecidableEq κ]

/-- The entries with another key. -/
def others (key : α → κ) (l : List α) (a : α) : List α := l.filter fun b => key b != key a

/-- The new entry replaces the one with its key, goes last, and the newest `n` stay. -/
def upsert (key : α → κ) (n : ℕ) (l : List α) (a : α) : List α := last n (others key l a ++ [a])

/-- The entries an upsert drops for the bound. -/
def dropped (key : α → κ) (n : ℕ) (l : List α) (a : α) : List α :=
  (others key l a).take ((others key l a).length + 1 - n)

theorem mem_others_iff : b ∈ others key l a ↔ b ∈ l ∧ key b ≠ key a := by
  simp [others, List.mem_filter]

/-- The keys stay distinct when the new entry goes behind the others. -/
theorem nodup_others_append (h : (l.map key).Nodup) (a : α) :
    ((others key l a ++ [a]).map key).Nodup := by
  rw [List.map_append, List.map_singleton]
  refine List.Nodup.append (h.sublist (List.filter_sublist.map key)) (List.nodup_singleton _) ?_
  intro k hk hk'
  obtain ⟨b, hb, rfl⟩ := List.mem_map.mp hk
  exact (mem_others_iff.mp hb).2 (List.mem_singleton.mp hk')

/-- **Upsert.** Distinct keys stay distinct, and the bound is restored. -/
theorem isRing_upsert (h : (l.map key).Nodup) (a : α) : IsRing key n (upsert key n l a) :=
  isRing_last (nodup_others_append h a)

/-- The new entry is there. -/
theorem mem_upsert_self (hn : 0 < n) (l : List α) (a : α) : a ∈ upsert key n l a :=
  mem_last (others key l a) a (m := []) hn

/-- What an upsert leaves of the others. -/
theorem upsert_eq (hn : 0 < n) (l : List α) (a : α) :
    upsert key n l a = (others key l a).drop ((others key l a).length + 1 - n) ++ [a] := by
  unfold upsert last
  rw [List.length_append, List.length_singleton, List.drop_append]
  have hle : (others key l a).length + 1 - n ≤ (others key l a).length := by omega
  rw [Nat.sub_eq_zero_of_le hle, List.drop_zero]

/-- **The entries after an upsert** of a list with distinct keys: the new one, and those with
another key that are not dropped. -/
theorem mem_upsert_iff (hn : 0 < n) (h : (l.map key).Nodup) :
    b ∈ upsert key n l a ↔ b = a ∨ b ∈ l ∧ key b ≠ key a ∧ b ∉ dropped key n l a := by
  have hnodup : (others key l a).Nodup :=
    (h.sublist (List.filter_sublist.map key)).of_map key
  rw [upsert_eq hn, List.mem_append, List.mem_singleton, or_comm, ← and_assoc, ← mem_others_iff]
  refine or_congr Iff.rfl ?_
  unfold dropped
  generalize (others key l a).length + 1 - n = k
  have hsplit : (others key l a).take k ++ (others key l a).drop k = others key l a :=
    List.take_append_drop k _
  constructor
  · intro hb
    refine ⟨List.mem_of_mem_drop hb, fun hb' => ?_⟩
    rw [← hsplit] at hnodup
    exact List.disjoint_of_nodup_append hnodup hb' hb
  · rintro ⟨hb, hb'⟩
    rw [← hsplit] at hb
    exact (List.mem_append.mp hb).resolve_left hb'

/-- A ring with room drops nothing, and neither does the replacement of an entry. -/
theorem dropped_eq_nil (h : (others key l a).length < n) : dropped key n l a = [] := by
  unfold dropped
  rw [Nat.sub_eq_zero_of_le h, List.take_zero]

/-- **What is dropped.** A ring drops at most its oldest entry, and only when it is full and holds
no entry with the new key. -/
theorem dropped_cases (h : IsRing key n l) (hb : b ∈ dropped key n l a) :
    l.length = n ∧ (∀ c ∈ l, key c ≠ key a) ∧ l.head? = some b := by
  have hle : (others key l a).length ≤ l.length := List.length_filter_le _ _
  have hlt : ¬ (others key l a).length < n := by
    intro hlt
    rw [dropped_eq_nil hlt] at hb
    cases hb
  have hlen : (others key l a).length = l.length := by
    have := h.length
    omega
  have hsame : others key l a = l := List.filter_sublist.eq_of_length hlen
  have hn : l.length = n := by
    have := h.length
    omega
  refine ⟨hn, fun c hc => (mem_others_iff.mp (hsame.symm ▸ hc)).2, ?_⟩
  unfold dropped at hb
  rw [hsame, hn, Nat.add_sub_cancel_left] at hb
  cases l with
  | nil => cases hb
  | cons c l => simpa [eq_comm] using hb

end Upsert

end KeyedRing
