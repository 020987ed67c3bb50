import Mathlib.Data.List.AList
import Mathlib.Data.List.Induction

set_option relaxedAutoImplicit false
set_option autoImplicit false

/-!
# Filling a map in a loop

A loop visits rows and writes a value for some of them into a map. If the keys of the rows are
different, what the map holds afterwards does not depend on their order: under the key of a row that
wrote, the value it wrote, and elsewhere what was there before. If rows share keys, the last one
wins, and the order does not matter exactly if they agree on what they write.

## Main definitions

* `MapFill.fill key val rows m` — the map after the loop.
* `MapFill.Agree key val rows` — rows with the same key write the same value.

## Main results

* `MapFill.lookup_fill_of_mem`, `MapFill.lookup_fill_of_notMem` — what the map holds.
* `MapFill.lookup_foldl_insert` — what the map holds when every row writes.
* `MapFill.lookup_fill_entries` — what is copied from another map.
* `MapFill.lookup_fill_of_agree` — what the map holds when rows that share a key agree.
* `MapFill.lookup_fill_perm_iff` — when the order of the rows does not matter.
-/

namespace MapFill

variable {ι α ρ : Type} [DecidableEq ι] (key : ρ → ι) (val : ρ → Option α)

/-- `for r := range rows { if v, ok := val(r); ok { m[key(r)] = v } }`. -/
def fill (rows : List ρ) (m : AList fun _ : ι => α) : AList fun _ : ι => α :=
  rows.foldl (fun m r => (val r).elim m fun v => m.insert (key r) v) m

variable {key val}

/-- Where no row with the key writes, the map is as before. -/
theorem lookup_fill_of_silent {rows : List ρ} {k : ι} (h : ∀ r ∈ rows, key r = k → val r = none)
    (m : AList fun _ : ι => α) : (fill key val rows m).lookup k = m.lookup k := by
  induction rows generalizing m with
  | nil => rfl
  | cons r rows ih =>
    have hstep := ih (fun r' hr' => h r' (List.mem_cons_of_mem _ hr'))
      ((val r).elim m fun v => m.insert (key r) v)
    unfold fill at hstep ⊢
    rw [List.foldl_cons, hstep]
    cases hv : val r with
    | none => rfl
    | some v =>
      have hne : k ≠ key r := fun heq => by
        rw [h r List.mem_cons_self heq.symm] at hv
        cases hv
      exact AList.lookup_insert_ne hne

/-- Where no row has the key, the map is as before. -/
theorem lookup_fill_of_notMem {rows : List ρ} {k : ι} (hk : k ∉ rows.map key)
    (m : AList fun _ : ι => α) : (fill key val rows m).lookup k = m.lookup k :=
  lookup_fill_of_silent (fun _ hr heq => absurd (heq ▸ List.mem_map_of_mem hr) hk) m

/-- Under the key of a row: what the row wrote, or what was there before. -/
theorem lookup_fill_of_mem {rows : List ρ} (hn : (rows.map key).Nodup) {r : ρ} (hr : r ∈ rows)
    (m : AList fun _ : ι => α) :
    (fill key val rows m).lookup (key r) = (val r).or (m.lookup (key r)) := by
  induction rows generalizing m with
  | nil => simp at hr
  | cons r' rows ih =>
    simp only [List.map_cons, List.nodup_cons] at hn
    have hfill : fill key val (r' :: rows) m =
        fill key val rows ((val r').elim m fun v => m.insert (key r') v) := rfl
    rw [hfill]
    rcases List.mem_cons.mp hr with rfl | hr
    · rw [lookup_fill_of_notMem hn.1]
      cases val r with
      | none => rfl
      | some v => exact AList.lookup_insert m
    · rw [ih hn.2 hr]
      -- the row before has another key
      have hne : key r ≠ key r' := fun heq => hn.1 (heq ▸ List.mem_map_of_mem hr)
      cases val r' with
      | none => rfl
      | some v => simp only [Option.elim_some, AList.lookup_insert_ne hne]

/-- Rows that all write do not overwrite each other. -/
theorem lookup_foldl_insert (val : ρ → α) {rows : List ρ} (hn : (rows.map key).Nodup) {r : ρ}
    (hr : r ∈ rows) (m : AList fun _ : ι => α) :
    (rows.foldl (fun m r => m.insert (key r) (val r)) m).lookup (key r) = some (val r) := by
  show (fill key (fun r => some (val r)) rows m).lookup (key r) = some (val r)
  rw [lookup_fill_of_mem hn hr, Option.some_or]

/-- Copying the entries of another map, as far as `g` lets them pass. -/
theorem lookup_fill_entries {β : Type} (s : AList fun _ : ι => β) (g : ι → β → Option α)
    (m : AList fun _ : ι => α) (k : ι) :
    (fill Sigma.fst (fun e => g e.1 e.2) s.entries m).lookup k =
      ((s.lookup k).bind (g k)).or (m.lookup k) := by
  cases hk : s.lookup k with
  | none =>
    have hnot : k ∉ s.entries.map Sigma.fst := AList.lookup_eq_none.mp hk
    rw [lookup_fill_of_notMem hnot]
    rfl
  | some v =>
    have hmem : (⟨k, v⟩ : Sigma fun _ : ι => β) ∈ s.entries := AList.mem_lookup_iff.mp hk
    exact lookup_fill_of_mem s.nodupKeys hmem m

/-! ## Rows that share keys -/

/-- The last row wins. -/
theorem lookup_fill_last (rows : List ρ) {r : ρ} {v : α} (h : val r = some v)
    (m : AList fun _ : ι => α) : (fill key val (rows ++ [r]) m).lookup (key r) = some v := by
  unfold fill
  rw [List.foldl_append, List.foldl_cons, List.foldl_nil, h]
  exact AList.lookup_insert _

variable (key val) in
/-- Rows that write under the same key write the same value. -/
def Agree (rows : List ρ) : Prop :=
  ∀ r ∈ rows, ∀ r' ∈ rows, key r = key r' → ∀ v ∈ val r, ∀ v' ∈ val r', v = v'

/-- Under the key of a row that wrote: what it wrote, if the rows agree.

**Proof sketch.** By induction from the last row: it writes the same value, or it writes elsewhere
or nothing. -/
theorem lookup_fill_of_agree {rows : List ρ} (h : Agree key val rows) {r : ρ} (hr : r ∈ rows)
    {v : α}
    (hv : val r = some v) (m : AList fun _ : ι => α) :
    (fill key val rows m).lookup (key r) = some v := by
  induction rows using List.reverseRecOn with
  | nil => cases hr
  | append_singleton rows r' ih =>
    have hlast : r' ∈ rows ++ [r'] := List.mem_append_right _ List.mem_cons_self
    by_cases hwins : key r' = key r ∧ (val r').isSome = true
    · obtain ⟨v', hv'⟩ := Option.isSome_iff_exists.mp hwins.2
      have hsame : v = v' := h r hr r' hlast hwins.1.symm v hv v' hv'
      rw [← hwins.1, lookup_fill_last rows hv', hsame]
    · have hmem : r ∈ rows := by
        rcases List.mem_append.mp hr with hr | hr
        · exact hr
        · obtain rfl := List.mem_singleton.mp hr
          exact absurd ⟨rfl, by rw [hv]; rfl⟩ hwins
      have hrest := ih (fun a ha b hb =>
          h a (List.mem_append_left _ ha) b (List.mem_append_left _ hb))
        hmem
      have hstep : (fill key val (rows ++ [r']) m).lookup (key r) =
          (fill key val rows m).lookup (key r) := by
        have happ : fill key val (rows ++ [r']) m = fill key val [r'] (fill key val rows m) :=
          List.foldl_append
        rw [happ]
        refine lookup_fill_of_silent (fun a ha heq => ?_) _
        obtain rfl := List.mem_singleton.mp ha
        exact Option.not_isSome_iff_eq_none.mp fun hsome => hwins ⟨heq, hsome⟩
      rw [hstep, hrest]

/-- **The order of the rows** does not matter if rows that share a key agree, and only then. -/
theorem lookup_fill_perm_iff (rows : List ρ) (m : AList fun _ : ι => α) :
    (∀ rows', rows'.Perm rows →
    ∀ k, (fill key val rows' m).lookup k = (fill key val rows m).lookup k) ↔
      Agree key val rows := by
  constructor
  · intro h r hr r' hr' heq v hv v' hv'
    have hlast : ∀ a ∈ rows, ∀ w ∈ val a, (fill key val rows m).lookup (key a) = some w := by
      intro a ha w hw
      obtain ⟨s, t, rfl⟩ := List.append_of_mem ha
      have hp : ((s ++ t) ++ [a]).Perm (s ++ a :: t) :=
        (List.perm_append_singleton a (s ++ t)).trans List.perm_middle.symm
      rw [← h _ hp, lookup_fill_last _ hw]
    have hsame := hlast r hr v hv
    rw [heq, hlast r' hr' v' hv'] at hsame
    exact (Option.some.inj hsame).symm
  · intro h rows' hp k
    have h' : Agree key val rows' := fun r hr r' hr' =>
      h r (hp.mem_iff.mp hr) r' (hp.mem_iff.mp hr')
    by_cases hk : ∃ r ∈ rows, key r = k ∧ (val r).isSome = true
    · obtain ⟨r, hr, rfl, hsome⟩ := hk
      obtain ⟨v, hv⟩ := Option.isSome_iff_exists.mp hsome
      rw [lookup_fill_of_agree h hr hv, lookup_fill_of_agree h' (hp.mem_iff.mpr hr) hv]
    · have hsilent : ∀ r ∈ rows, key r = k → val r = none := fun r hr heq =>
        Option.not_isSome_iff_eq_none.mp fun hsome => hk ⟨r, hr, heq, hsome⟩
      rw [lookup_fill_of_silent hsilent,
        lookup_fill_of_silent fun r hr => hsilent r (hp.mem_iff.mp hr)]

end MapFill
