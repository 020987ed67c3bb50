import InverterDashboard.Go.JsonText

set_option relaxedAutoImplicit false
set_option autoImplicit false

/-!
# Spelled texts

The characters of a string may be written in several ways. A text of a tree is read as this tree if
each of its characters is spelled such that it is read back, in the values and in the keys.

## Main definitions

* `Go.Spells`, `Go.Escapes` — texts of a string, and ways to write a character.
* `Go.SpelledMember`, `Go.membersText` — the members of an object and their text.
* `Go.Json.spell` — the text of a tree with a way to write characters.

## Main results

* `Go.readsAs_obj` — objects of texts that are read.
* `Go.readsAs_spell` — a spelled tree is read as this tree.
-/

namespace Go

/-! ## Strings -/

/-- A text between quotes is read as a string. -/
def Spells (body : List Char) (s : String) : Prop :=
  ∀ cs, readString none (body ++ '"' :: cs) = some (s.toList, cs)

/-- A character is read as it is written. -/
def Escapes (esc : Char → List Char) : Prop :=
  ∀ c cs, readString none (esc c ++ cs) = (readString none cs).map (inFront [c])

theorem spells_escapeRune (s : String) : Spells (s.toList.flatMap escapeRune) s :=
  readString_flatMap s.toList

/-- The characters of a string one after the other. -/
theorem Escapes.spells {esc : Char → List Char} (h : Escapes esc) (s : String) :
    Spells (s.toList.flatMap esc) s := by
  intro cs
  induction s.toList with
  | nil => exact readString_quote cs
  | cons c l ih =>
    rw [List.flatMap_cons, List.append_assoc, h, ih]
    rfl

/-- A key and its colon are read as the key is spelled. -/
theorem Spells.readKey {body : List Char} {s : String} (h : Spells body s) (cs : List Char) :
    Go.readKey ('"' :: (body ++ '"' :: ':' :: cs)) = some (s, cs) := by
  unfold Go.readKey
  rw [skipSpace_cons (by decide)]
  dsimp only
  rw [if_pos rfl, h, Option.bind_some, skipSpace_cons (by decide)]
  dsimp only
  rw [if_pos rfl, String.ofList_toList]

/-! ## Objects -/

/-- A member of an object with the texts of its key and of its value. -/
structure SpelledMember where
  key : String
  keyText : List Char := key.toList.flatMap escapeRune
  text : List Char
  value : Json

/-- The member without its texts. -/
def SpelledMember.member (m : SpelledMember) : String × Json := (m.key, m.value)

/-- The texts of a member are read. -/
structure SpelledMember.Reads (m : SpelledMember) : Prop where
  key : Spells m.keyText m.key
  value : ReadsAs m.text m.value

/-- What follows a member of an object. -/
def membersText : List SpelledMember → List Char
  | [] => ['\x7d']
  | m :: ms => ',' :: '"' :: (m.keyText ++ '"' :: ':' :: (m.text ++ membersText ms))

theorem endsNumber_membersText (ms : List SpelledMember) (cs : List Char) :
    EndsNumber (membersText ms ++ cs) := by
  cases ms with
  | nil => exact endsNumber_cons (Or.inr (Or.inr rfl)) _
  | cons m ms => exact endsNumber_cons (Or.inl rfl) _

/-- The rest of an object is read member by member. -/
theorem readFields_membersText {ms : List SpelledMember} (h : ∀ m ∈ ms, m.Reads)
    {fuel depth : ℕ} {cs : List Char} (hfuel : (membersText ms).length ≤ fuel)
    (hdepth : Json.fieldsDepth (ms.map SpelledMember.member) ≤ depth) :
    readFields fuel depth (membersText ms ++ cs) =
      some (ms.map SpelledMember.member, cs) := by
  induction ms generalizing fuel with
  | nil =>
    cases fuel with
    | zero => cases hfuel
    | succ fuel =>
      show readFields (fuel + 1) depth ('\x7d' :: cs) = some ([], cs)
      rw [readFields, skipSpace_cons (by decide)]
      rfl
  | cons m ms ih =>
    rw [membersText, List.length_cons, List.length_cons, List.length_append, List.length_cons,
      List.length_cons, List.length_append] at hfuel
    rw [List.map_cons, SpelledMember.member, Json.fieldsDepth] at hdepth
    cases fuel with
    | zero => omega
    | succ fuel =>
      obtain ⟨hkey, hvalue⟩ := h m List.mem_cons_self
      have hread : readValue fuel depth (m.text ++ (membersText ms ++ cs)) =
          some (m.value, membersText ms ++ cs) :=
        hvalue.read (by omega) (by omega) (endsNumber_membersText ms cs)
      have hfields : readFields fuel depth (membersText ms ++ cs) =
          some (ms.map SpelledMember.member, cs) :=
        ih (fun m' hm' => h m' (List.mem_cons_of_mem m hm')) (by omega) (by omega)
      have htext : membersText (m :: ms) ++ cs = ',' :: '"' :: (m.keyText ++ '"' :: ':' ::
          (m.text ++ (membersText ms ++ cs))) := by
        rw [membersText]
        simp only [List.cons_append, List.append_assoc]
      rw [htext, readFields, skipSpace_cons (by decide)]
      dsimp only
      rw [if_neg (by decide), if_pos rfl, hkey.readKey]
      dsimp only [Option.bind_eq_bind, Option.bind_some]
      rw [hread]
      dsimp only [Option.bind_some]
      rw [hfields]
      rfl

/-- **Objects** of texts that are read. -/
theorem readsAs_obj {m : SpelledMember} {ms : List SpelledMember} (hm : m.Reads)
    (h : ∀ m ∈ ms, m.Reads) :
    ReadsAs ('\x7b' :: '"' :: (m.keyText ++ '"' :: ':' :: (m.text ++ membersText ms)))
      (.obj (m.member :: ms.map SpelledMember.member)) := by
  refine ⟨⟨'\x7b', _, rfl, by decide, by decide⟩, fun {fuel} {depth} {cs} hfuel hdepth _ => ?_⟩
  rw [List.length_cons, List.length_cons, List.length_append, List.length_cons, List.length_cons,
    List.length_append] at hfuel
  rw [Json.depth, SpelledMember.member, Json.fieldsDepth] at hdepth
  cases fuel with
  | zero => omega
  | succ fuel =>
    have hread : readValue fuel (depth - 1) (m.text ++ (membersText ms ++ cs)) =
        some (m.value, membersText ms ++ cs) :=
      hm.value.read (by omega) (by omega) (endsNumber_membersText ms cs)
    have hfields : readFields fuel (depth - 1) (membersText ms ++ cs) =
        some (ms.map SpelledMember.member, cs) :=
      readFields_membersText h (by omega) (by omega)
    have htext : '\x7b' :: '"' :: (m.keyText ++ '"' :: ':' :: (m.text ++ membersText ms)) ++ cs =
        '\x7b' :: '"' :: (m.keyText ++ '"' :: ':' :: (m.text ++ (membersText ms ++ cs))) := by
      simp only [List.cons_append, List.append_assoc]
    rw [htext, readValue, skipSpace_cons (by decide)]
    dsimp only
    rw [if_neg (by decide), if_pos rfl, if_neg (by omega), skipSpace_cons (by decide)]
    dsimp only
    rw [if_neg (by decide), hm.key.readKey]
    dsimp only [Option.bind_eq_bind, Option.bind_some]
    rw [hread]
    dsimp only [Option.bind_some]
    rw [hfields]
    rfl

/-! ## Trees -/

namespace Json

section Spell

variable (esc : Char → List Char)

mutual

/-- The text of a tree whose characters are written with `esc`. -/
def spell : Json → List Char
  | .null => "null".toList
  | .bool true => "true".toList
  | .bool false => "false".toList
  | .num n => n.text
  | .str s => '"' :: (s.toList.flatMap esc ++ ['"'])
  | .arr [] => ['[', ']']
  | .arr (e :: es) => '[' :: (spell e ++ tailText (spellElems es))
  | .obj [] => ['\x7b', '\x7d']
  | .obj ((k, v) :: fs) =>
    '\x7b' :: '"' :: (k.toList.flatMap esc ++ '"' :: ':' :: (spell v ++
      membersText (spellMembers fs)))

/-- The texts of elements. -/
def spellElems : List Json → List (List Char)
  | [] => []
  | e :: es => spell e :: spellElems es

/-- The members with their texts. -/
def spellMembers : List (String × Json) → List SpelledMember
  | [] => []
  | (k, v) :: fs => ⟨k, k.toList.flatMap esc, spell v, v⟩ :: spellMembers fs

end

theorem spellElems_eq (es : List Json) : spellElems esc es = es.map (spell esc) := by
  induction es with
  | nil => rfl
  | cons e es ih => rw [spellElems, ih, List.map_cons]

theorem member_spellMembers (fs : List (String × Json)) :
    (spellMembers esc fs).map SpelledMember.member = fs := by
  induction fs with
  | nil => rfl
  | cons f fs ih =>
    rw [spellMembers, List.map_cons, ih]
    rfl

end Spell

end Json

open Json in
mutual

/-- **Spelled trees** are read as they are. -/
theorem readsAs_spell {esc : Char → List Char} (h : Escapes esc) : ∀ j : Json,
    ReadsAs (spell esc j) j
  | .null => readsAs_text .null
  | .bool true => readsAs_text (.bool true)
  | .bool false => readsAs_text (.bool false)
  | .num n => readsAs_text (.num n)
  | .str s => readsAs_str (h.spells s)
  | .arr [] => readsAs_text (.arr [])
  | .arr (e :: es) => by
    have helems : ∀ p ∈ es.map (fun e => (spell esc e, e)), ReadsAs p.1 p.2 := by
      intro p hp
      obtain ⟨e', he', rfl⟩ := List.mem_map.mp hp
      exact readsAs_spellElems h es e' he'
    have hvalues : (es.map fun e => (spell esc e, e)).map Prod.snd = es := by
      rw [List.map_map]
      exact List.map_id es
    have harr := @readsAs_arr (spell esc e, e) _ (readsAs_spell h e) helems
    rw [hvalues, List.map_map] at harr
    rw [spell, spellElems_eq]
    exact harr
  | .obj [] => readsAs_text (.obj [])
  | .obj ((k, v) :: fs) => by
    have hobj := @readsAs_obj ⟨k, k.toList.flatMap esc, spell esc v, v⟩ _
      ⟨h.spells k, readsAs_spell h v⟩ (readsAs_spellMembers h fs)
    rw [member_spellMembers] at hobj
    rw [spell]
    exact hobj

theorem readsAs_spellElems {esc : Char → List Char} (h : Escapes esc) : ∀ es : List Json,
    ∀ e ∈ es, ReadsAs (spell esc e) e
  | [], e, he => absurd he List.not_mem_nil
  | e' :: es, e, he => by
    rcases List.mem_cons.mp he with heq | he
    · exact heq ▸ readsAs_spell h e'
    · exact readsAs_spellElems h es e he

theorem readsAs_spellMembers {esc : Char → List Char} (h : Escapes esc) :
    ∀ fs : List (String × Json), ∀ m ∈ spellMembers esc fs, m.Reads
  | [], m, hm => absurd hm List.not_mem_nil
  | (k, v) :: fs, m, hm => by
    rcases List.mem_cons.mp hm with heq | hm
    · exact heq ▸ ⟨h.spells k, readsAs_spell h v⟩
    · exact readsAs_spellMembers h fs m hm

end

end Go
