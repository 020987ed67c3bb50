import InverterDashboard.Lib.TwoRuns
import InverterDashboard.Settings.Durable

set_option relaxedAutoImplicit false
set_option autoImplicit false

/-!
# The token of Home Assistant stays inside

Of `ha_token` a client learns only whether one is set. Two runs that differ in nothing but the
tokens, in the file, in every patch and in what is therefore stored, answer every request and
publish every state with the same settings and the same errors.

## Main definitions

* `Dashboard.Settings.Answer`, `Dashboard.Settings.respond` — what leaves the program.
* `Dashboard.Settings.HidesToken` — values that may differ in the token.

## Main results

* `Dashboard.Settings.secret_of_run` — the answers do not depend on the token.
-/

namespace Dashboard.Settings

open Go

/-! ## What leaves the program -/

/-- What a client learns from an event: the error of a patch and the masked settings, as they are
answered to a request and published with the state. -/
structure Answer where
  error : Option ApplyError
  settings : String → Option Any

/-- One event with what is answered. -/
def respond (explicit : Bool) (s : Store) : Event → Store × Answer
  | .restart e => (.init e s.file, ⟨none, (Store.init e s.file).masked.lookup⟩)
  | .apply patch o =>
    let r := s.applyWithReplacer explicit patch o
    (r.1, ⟨r.2, r.1.masked.lookup⟩)

/-- The states are those of the runs. -/
theorem step_eq_respond (explicit : Bool) (s : Store) (ev : Event) :
    s.step explicit ev = some (respond explicit s ev).1 := by
  cases ev <;> rfl

/-! ## Values that differ in the token -/

/-- A token that a client may set: neither empty, which clears it, nor the placeholder. -/
def IsToken (v : Any) : Prop := ∃ t, v = .string t ∧ t ≠ "" ∧ t ≠ "***"

/-- The value of a key, or a token for another one. -/
def HidesToken (k : String) (v v' : Any) : Prop :=
  v = v' ∨ k = "ha_token" ∧ IsToken v ∧ IsToken v'

/-- What is found under a key, up to the token. -/
def Hidden (f f' : String → Option Any) : Prop := ∀ k, Option.Rel (HidesToken k) (f k) (f' k)

theorem HidesToken.refl (k : String) (v : Any) : HidesToken k v v := Or.inl rfl

/-- Both values pass the check of the key, or neither. -/
theorem HidesToken.typeOK {k : String} {v v' : Any} (h : HidesToken k v v') :
    Settings.typeOK k v = Settings.typeOK k v' := by
  rcases h with rfl | ⟨rfl, ⟨t, rfl, -⟩, ⟨t', rfl, -⟩⟩
  · rfl
  · rfl

/-- Both values are the placeholder, or neither. -/
theorem HidesToken.isMask {k : String} {v v' : Any} (h : HidesToken k v v') :
    Settings.isMask k v = Settings.isMask k v' := by
  rcases h with rfl | ⟨rfl, ⟨t, rfl, -, ht⟩, ⟨t', rfl, -, ht'⟩⟩
  · rfl
  · simp [Settings.isMask, ht, ht']

/-- The mask shows that there is a token, not which one. -/
theorem maskOf_of_rel {x x' : Option Any} (h : Option.Rel (HidesToken "ha_token") x x') :
    maskOf x = maskOf x' := by
  cases h with
  | none => rfl
  | some h =>
    rcases h with rfl | ⟨-, ⟨t, rfl, ht, -⟩, ⟨t', rfl, ht', -⟩⟩
    · rfl
    · simp [maskOf, Any.string?, ht, ht']

/-! ## Options that differ in the token -/

section Options

variable {k : String} {x x' y y' : Option Any}

/-- Apart from the token the values are equal. -/
theorem eq_of_rel (hk : k ≠ "ha_token") (h : Option.Rel (HidesToken k) x x') : x = x' := by
  cases h with
  | none => rfl
  | some h =>
    rcases h with rfl | ⟨rfl, -⟩
    · rfl
    · exact absurd rfl hk

theorem rel_refl (k : String) (x : Option Any) : Option.Rel (HidesToken k) x x := by
  cases x with
  | none => exact .none
  | some v => exact .some (.refl k v)

/-- Values behind a test that does not see the token. -/
theorem rel_filter {p : Any → Bool} (hp : ∀ {v v'}, HidesToken k v v' → p v = p v')
    (h : Option.Rel (HidesToken k) x x') :
    Option.Rel (HidesToken k) (x.filter p) (x'.filter p) := by
  cases h with
  | none => exact .none
  | some h =>
    rw [Option.filter_some, Option.filter_some, hp h]
    split_ifs
    · exact .some h
    · exact .none

/-- Values that are taken first. -/
theorem rel_or (h : Option.Rel (HidesToken k) x x') (h' : Option.Rel (HidesToken k) y y') :
    Option.Rel (HidesToken k) (x.or y) (x'.or y') := by
  cases h with
  | none => exact h'
  | some h => exact .some h

/-- Values that are written and read back. -/
theorem rel_written (h : Option.Rel (HidesToken k) x x') :
    Option.Rel (HidesToken k) ((x.bind marshal).bind Json.toAny)
      ((x'.bind marshal).bind Json.toAny) := by
  cases h with
  | none => exact .none
  | some h =>
    rcases h with rfl | ⟨rfl, ⟨t, rfl, ht⟩, ⟨t', rfl, ht'⟩⟩
    · exact rel_refl k _
    · exact .some (Or.inr ⟨rfl, ⟨t, rfl, ht⟩, ⟨t', rfl, ht'⟩⟩)

end Options

/-! ## Stores that differ in the token -/

/-- Two stores in the same environment, with the same settings in memory and in the file up to the
token. -/
structure Store.Alike (s s' : Store) : Prop where
  env : s.env = s'.env
  tidy : Tidy s.env s.current
  tidy' : Tidy s'.env s'.current
  current : Hidden s.current.lookup s'.current.lookup
  file : Hidden (stored s.file) (stored s'.file)

/-- The masked settings are the same. -/
theorem Hidden.masked {s s' : Store} (h : Hidden s.current.lookup s'.current.lookup) :
    s.masked.lookup = s'.masked.lookup := by
  funext k
  rw [lookup_masked, lookup_masked]
  split_ifs with hk
  · rw [maskOf_of_rel (h "ha_token")]
  · exact eq_of_rel hk (h k)

/-- After a start. -/
theorem alike_init (e : Environment) {file file' : Option Json}
    (h : Hidden (stored file) (stored file')) : (Store.init e file).Alike (.init e file') where
  env := rfl
  tidy := tidy_load e file
  tidy' := tidy_load e file'
  file := h
  current k := by
    show Option.Rel _ ((load e file).lookup k) ((load e file').lookup k)
    rw [lookup_load, lookup_load]
    exact rel_or (rel_filter HidesToken.typeOK (h k)) (rel_refl k _)

/-- Two patches that are the same up to the token. -/
def SamePatch (patch patch' : StrMap Any) : Prop :=
  List.Forall₂ (fun e e' => e.1 = e'.1 ∧ HidesToken e.1 e.2 e'.2) patch.entries patch'.entries

namespace SamePatch

variable {patch patch' : StrMap Any}

/-- What is found in the patches. -/
theorem hidden (h : SamePatch patch patch') : Hidden patch.lookup patch'.lookup := by
  intro k
  unfold SamePatch at h
  show Option.Rel _ (patch.entries.dlookup k) (patch'.entries.dlookup k)
  generalize patch.entries = es, patch'.entries = es' at h ⊢
  induction h with
  | nil => exact .none
  | @cons e e' es es' he hes ih =>
    obtain ⟨key, v⟩ := e
    obtain ⟨key', v'⟩ := e'
    obtain ⟨rfl, hv⟩ := he
    by_cases hk : k = key
    · subst hk
      rw [List.dlookup_cons_eq, List.dlookup_cons_eq]
      exact .some hv
    · rw [List.dlookup_cons_ne _ _ hk, List.dlookup_cons_ne _ _ hk]
      exact ih

/-- The first error is the same: no error tells a value. -/
theorem checked (h : SamePatch patch patch') :
    patch.entries.findSome? checkEntry = patch'.entries.findSome? checkEntry := by
  unfold SamePatch at h
  generalize patch.entries = es, patch'.entries = es' at h ⊢
  induction h with
  | nil => rfl
  | @cons e e' es es' he hes ih =>
    obtain ⟨key, v⟩ := e
    obtain ⟨key', v'⟩ := e'
    obtain ⟨rfl, hv⟩ := he
    have hcheck : checkEntry ⟨key, v⟩ = checkEntry ⟨key, v'⟩ := by
      unfold checkEntry
      rw [hv.typeOK]
    rw [List.findSome?_cons, List.findSome?_cons, hcheck, ih]

/-- The settings under the patches. -/
theorem merged (h : SamePatch patch patch') {m m' : StrMap Any} (hm : Hidden m.lookup m'.lookup) :
    Hidden (Settings.merged m patch).lookup (Settings.merged m' patch').lookup := by
  intro k
  show Option.Rel _ ((Settings.merged m patch).lookup k) ((Settings.merged m' patch').lookup k)
  rw [lookup_merged, lookup_merged]
  refine rel_or (rel_filter ?_ (h.hidden k)) (hm k)
  intro v v' hv
  rw [hv.isMask]

end SamePatch

/-- The error of a patch. -/
theorem error_apply {explicit : Bool} {s : Store} (hs : Tidy s.env s.current) {patch : StrMap Any}
    {o : Outcomes} : (s.applyWithReplacer explicit patch o).2 =
      (patch.entries.findSome? checkEntry).or ((o.failure explicit).or
        (if o.replace then some .replace else none)) := by
  unfold Store.applyWithReplacer
  cases hcheck : patch.entries.findSome? checkEntry with
  | some err => rfl
  | none =>
    obtain ⟨fields, hf, -⟩ := (hs.merged (accepted_iff.mp hcheck)).encode
    simp only [hf]
    cases o.failure explicit with
    | some err => rfl
    | none => rfl

/-- What is written for settings that are the same up to the token. -/
theorem Hidden.encode {e : Environment} {m m' : StrMap Any} (h : Hidden m.lookup m'.lookup)
    (hm : Tidy e m) (hm' : Tidy e m') :
    Hidden (stored (Settings.encode m)) (stored (Settings.encode m')) := by
  intro k
  obtain ⟨fields, hf, hentry, hstored⟩ := hm.encode
  obtain ⟨fields', hf', hentry', hstored'⟩ := hm'.encode
  rw [hf, hf', hstored, hstored', hentry, hentry']
  exact rel_written (h k)

/-- After a patch. -/
theorem Store.Alike.apply {explicit : Bool} {s s' : Store} (h : s.Alike s')
    {patch patch' : StrMap Any} (hp : SamePatch patch patch') (o : Outcomes) :
    (s.applyWithReplacer explicit patch o).1.Alike (s'.applyWithReplacer explicit patch' o).1 := by
  by_cases hc : patch.entries.findSome? checkEntry = none ∧ o.done explicit = true
  · have hc' := hp.checked ▸ hc
    have htidy := h.tidy.merged (accepted_iff.mp hc.1)
    have htidy' := h.tidy'.merged (accepted_iff.mp hc'.1)
    rw [applyWithReplacer_of_done h.tidy hc.1 hc.2, applyWithReplacer_of_done h.tidy' hc'.1 hc.2]
    exact ⟨h.env, htidy, htidy', hp.merged h.current,
      (hp.merged h.current).encode htidy (h.env ▸ htidy')⟩
  · rw [applyWithReplacer_of_not_done hc,
      applyWithReplacer_of_not_done (by rwa [← hp.checked])]
    exact h

/-! ## Runs that differ in the token -/

/-- Two events that are the same up to the token. -/
inductive SameEvent : Event → Event → Prop
  | restart (e : Environment) : SameEvent (.restart e) (.restart e)
  | apply {patch patch' : StrMap Any} (h : SamePatch patch patch') (o : Outcomes) :
    SameEvent (.apply patch o) (.apply patch' o)

/-- **Step.** Stores that are the same up to the token stay so and answer alike. -/
theorem unwinds (explicit : Bool) : TwoRuns.Unwinds (respond explicit) Store.Alike SameEvent where
  next := by
    intro s s' ev ev' h hev
    cases hev with
    | restart e => exact alike_init e h.file
    | apply hp o => exact h.apply hp o
  answer := by
    intro s s' ev ev' h hev
    cases hev with
    | restart e => exact congrArg (Answer.mk none) (alike_init e h.file).current.masked
    | apply hp o =>
      refine congrArg₂ Answer.mk ?_ (h.apply hp o).current.masked
      rw [error_apply h.tidy, error_apply h.tidy', hp.checked]

/-- **Secrecy** of the token: whatever is asked, with whatever outcomes of the operations on files
and through whatever restarts, the answers are the same for all tokens, in the file the program
found as in the patches. -/
theorem secret_of_run (explicit : Bool) (e : Environment) {file file' : Option Json}
    (hfile : Hidden (stored file) (stored file')) {es es' : List Event}
    (hes : List.Forall₂ SameEvent es es') :
    TwoRuns.answers (respond explicit) (.init e file) es =
      TwoRuns.answers (respond explicit) (.init e file') es' :=
  (unwinds explicit).answers_eq hes (alike_init e hfile)

/-- A patch that sets the token. -/
def setsToken (t : String) : StrMap Any := AList.singleton "ha_token" (.string t)

/-- A token is set, with the replacement of the file not confirmed, and the program starts again. -/
theorem secret_of_run_twoTokens :
    TwoRuns.answers (respond false) (.init brokerEnvironment none)
        [.apply (setsToken "first") unflushed, .restart brokerEnvironment] =
      TwoRuns.answers (respond false) (.init brokerEnvironment none)
        [.apply (setsToken "second") unflushed, .restart brokerEnvironment] := by
  refine secret_of_run false brokerEnvironment (fun k => rel_refl k _) ?_
  have hpatch : SamePatch (setsToken "first") (setsToken "second") :=
    .cons ⟨rfl, Or.inr ⟨rfl, ⟨_, rfl, by decide, by decide⟩, ⟨_, rfl, by decide, by decide⟩⟩⟩ .nil
  exact .cons (.apply hpatch unflushed) (.cons (.restart brokerEnvironment) .nil)

end Dashboard.Settings
