import InverterDashboard.Gateway.Map
import Mathlib.Tactic

set_option relaxedAutoImplicit false
set_option autoImplicit false

/-!
# The names in a banner

The client on LAN collects the words of an alarm name and joins them; the gateway writes each word
when it is complete. Both give the same text, and they name the service of an instance alike.

## Main definitions

* `Dashboard.Gateway.joined` — the capitalized words, joined by spaces.

## Main results

* `Dashboard.Gateway.prettyAlarmName_eq` — the alarm names agree on every text.
* `Dashboard.Gateway.prettyServiceName_eq` — the service names agree on numbered instances.
* `Dashboard.Gateway.toNotification_eq` — the banners of a slot agree.
-/

namespace Dashboard

namespace Gateway

open Go

/-- The capitalized words, joined by spaces. -/
def joined (words : List (List Char)) : String :=
  " ".intercalate ((words.map String.ofList).map capitalize)

theorem capitalize_ne_empty {w : List Char} (h : w ≠ []) : capitalize (String.ofList w) ≠ "" := by
  obtain ⟨c, cs, rfl⟩ := List.exists_cons_of_ne_nil h
  unfold capitalize
  rw [String.toList_ofList]
  dsimp only
  split_ifs
  · intro hnil
    have hl := congrArg String.toList hnil
    rw [String.toList_ofList] at hl
    cases hl
  · intro hnil
    have hl := congrArg List.length (congrArg String.toList hnil)
    rw [String.toList_ofList, List.length_append, List.length_replicate] at hl
    have hpos := Char.utf8Size_pos c
    have hzero : ("" : String).toList.length = 0 := rfl
    omega

/-- A word written behind others is set apart by a space. -/
theorem joined_append (words : List (List Char)) (w : List Char) :
    joined (words ++ [w]) = (if words = [] then "" else joined words ++ " ") ++
      capitalize (String.ofList w) := by
  unfold joined
  rw [List.map_append, List.map_append]
  split_ifs with h
  · rw [h]
    simp
  · rw [String.intercalate_append_of_ne_nil (by simpa using h) (by simp)]
    simp

/-- Nothing is written exactly before the first word. -/
theorem joined_eq_empty_iff {words : List (List Char)} (h : ∀ w ∈ words, w ≠ []) :
    joined words = "" ↔ words = [] := by
  constructor
  · intro hj
    rcases List.eq_nil_or_concat words with rfl | ⟨ws, w, rfl⟩
    · rfl
    · rw [List.concat_eq_append, joined_append] at hj
      have hw : w ≠ [] := h w (by simp)
      exact absurd (String.append_eq_empty_iff.mp hj).2 (capitalize_ne_empty hw)
  · rintro rfl
    rfl

/-- The words that are written, and the word that is being read. -/
structure Follows (ws : List (List Char) × List Char) (acc : String × List Char) : Prop where
  written : acc.1 = joined ws.1
  current : acc.2 = ws.2
  nonempty : ∀ w ∈ ws.1, w ≠ []

/-- The end of a word. -/
theorem Follows.flush {ws : List (List Char) × List Char} {acc : String × List Char}
    (h : Follows ws acc) :
    Follows (if ws.2.isEmpty then ws.1 else ws.1 ++ [ws.2], []) (Gateway.flush acc) := by
  obtain ⟨words, cur⟩ := ws
  obtain ⟨b, cur'⟩ := acc
  obtain ⟨hb, rfl, hne⟩ := h
  dsimp only at hb hne
  cases cur' with
  | nil => exact ⟨hb, rfl, hne⟩
  | cons c cs =>
    refine ⟨?_, rfl, fun w hw => ?_⟩
    · show (if b ≠ "" then b ++ " " else b) ++ capitalize (String.ofList (c :: cs)) =
        joined (words ++ [c :: cs])
      rw [joined_append]
      by_cases hw : words = []
      · have hempty : b = "" := hb.trans ((joined_eq_empty_iff hne).mpr hw)
        rw [if_neg (not_not.mpr hempty), if_pos hw, hempty]
      · have hfull : b ≠ "" := fun h => hw ((joined_eq_empty_iff hne).mp (hb.symm.trans h))
        rw [if_pos hfull, if_neg hw, hb]
    · rcases List.mem_append.mp hw with hw | hw
      · exact hne w hw
      · rw [List.mem_singleton.mp hw]
        exact List.cons_ne_nil _ _

/-- One rune. -/
theorem Follows.step {ws : List (List Char) × List Char} {acc : String × List Char}
    (h : Follows ws acc) (ch : Char) : Follows (splitStep ws ch) (nameStep acc ch) := by
  have hflush := h.flush
  obtain ⟨words, cur⟩ := ws
  obtain ⟨b, cur'⟩ := acc
  obtain ⟨hb, hcur, hne⟩ := h
  dsimp only at hb hcur hne hflush
  subst hcur
  unfold splitStep nameStep
  dsimp only
  cases cur' with
  | nil =>
    simp only [List.getLast?_nil, Option.any_none, Bool.and_false, Bool.false_eq_true, if_false,
      List.isEmpty_nil, if_true] at hflush ⊢
    split_ifs
    · exact hflush
    · exact ⟨hb, rfl, hne⟩
  | cons c cs =>
    have hnil : (c :: cs).isEmpty = false := rfl
    simp only [hnil, Bool.not_false, Bool.and_true, Bool.false_eq_true, if_false] at hflush ⊢
    split_ifs
    · exact ⟨hflush.written, rfl, hflush.nonempty⟩
    · exact hflush
    · exact ⟨hb, rfl, hne⟩

/-- **Alarm names.** The two implementations agree on every text. -/
theorem prettyAlarmName_eq (name : String) :
    prettyAlarmName name = Dashboard.prettyAlarmName name := by
  have hfold : ∀ (chs : List Char) (ws : List (List Char) × List Char) (acc : String × List Char),
      Follows ws acc → Follows (chs.foldl splitStep ws) (chs.foldl nameStep acc) := by
    intro chs
    induction chs with
    | nil => exact fun _ _ h => h
    | cons ch chs ih => exact fun _ _ h => ih _ _ (h.step ch)
  have hstart : Follows ([], []) ("", []) := ⟨rfl, rfl, fun _ h => by cases h⟩
  exact (hfold name.toList _ _ hstart).flush.written

/-- The part of a service text in front of its first underscore, and the part behind it. -/
theorem splitUnderscore {service : String} (inst : String) (h : '_' ∉ service.toList) :
    (service ++ "_" ++ inst).toList = service.toList ++ '_' :: inst.toList ∧
      (service ++ "_" ++ inst).toList.takeWhile (· != '_') = service.toList := by
  have htext : (service ++ "_" ++ inst).toList = service.toList ++ '_' :: inst.toList := by
    have hu : "_".toList = ['_'] := by decide
    rw [String.toList_append, String.toList_append, hu, List.append_assoc, List.singleton_append]
  refine ⟨htext, ?_⟩
  rw [htext, List.takeWhile_append_of_pos]
  · simp
  · intro c hc
    rw [bne_iff_ne]
    rintro rfl
    exact h hc

/-- **Service names.** A numbered instance whose number is an `int` is set apart by both. -/
theorem prettyServiceName_eq {service inst : String} (h : '_' ∉ service.toList)
    (hne : service ≠ "") (hdigits : (digitsValue inst.toList).isSome = true)
    (hint : (atoi inst).isSome = true) :
    prettyServiceName (service ++ "_" ++ inst) =
      Dashboard.prettyServiceName (service ++ "_" ++ inst) := by
  obtain ⟨htext, htake⟩ := splitUnderscore inst h
  have hmem : (service ++ "_" ++ inst).toList.contains '_' = true := by
    rw [htext]
    simp
  have hrest : ((service ++ "_" ++ inst).toList.drop service.toList.length).tail = inst.toList := by
    rw [htext, List.drop_left]
    rfl
  have hnum : !inst.toList.isEmpty ∧ inst.toList.all Char.isDigit = true := by
    unfold digitsValue at hdigits
    split_ifs at hdigits with hbad
    · cases hdigits
    · simpa using hbad
  have hname : service.toList.isEmpty = false := by
    rw [List.isEmpty_eq_false_iff]
    exact fun hnil => hne (String.toList_inj.mp hnil)
  unfold prettyServiceName Dashboard.prettyServiceName
  dsimp only
  rw [htake, hmem, hrest, String.ofList_toList, hint, hname, hnum.2]
  simp only [Bool.and_true, Bool.true_and, if_true, Bool.false_eq_true, if_false]
  rw [if_pos hnum.1]
  rfl

/-- **Slots.** The banners of a slot agree. -/
theorem toNotification_eq (ps : PlatformSlot) : toNotification ps = ps.toNotification := by
  have hlevel : (if ps.hasType then (if ps.notifType = 0 then "warning"
        else if ps.notifType = 2 then "info" else "alarm") else "alarm") =
      if ps.hasType && ps.notifType == 0 then "warning"
      else if ps.hasType && ps.notifType == 2 then "info" else "alarm" := by
    cases ps.hasType <;> simp
  unfold toNotification PlatformSlot.toNotification
  dsimp only
  rw [hlevel]
  cases ps.acknowledged with
  | true => rfl
  | false =>
    cases trimSpace ps.description == "" with
    | true => rfl
    | false => rfl

end Gateway

end Dashboard
