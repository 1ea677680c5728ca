import QueryScript.Proofs.Checks
import QueryScript.Proofs.Json.Reading
import QueryScript.Proofs.Text.Cutting
import QueryScript.Result.Format

/-!
# Formats read back

A format is written as a value and as text, and there are more ways to write one than are printed:
the value keys may stand in one text with commas, as `null`, or not at all, and a bare name may be
the only item of a list.  All of them are read as a format that prints in one way, and what is
printed reads back as this format (`Format.ofJson_roundTrip`).

As a value this holds since the keys are printed as a list of their own and never cut again
(`Format.ofJson_toJson`).  As text it holds since the list is made of texts, which read back
whatever characters they have (`Json.parse?_compact`), and since it begins and ends with a bracket,
so that nothing is trimmed.
-/

namespace QueryScript.Format

/-- Formats that can be written: the column of the keys has a name. -/
def IsNamed : Format → Prop
  | .struct column _ => column ≠ ""
  | _ => True

/-! ## What is read is named -/

theorem isNamed_of_ofName {name : String} {f : Format} (h : ofName name = .ok f) : f.IsNamed := by
  unfold ofName at h
  split at h <;> cases h <;> trivial

theorem isNamed_of_structOf {rest : List Json} {f : Format} (h : structOf rest = .ok f) :
    f.IsNamed := by
  unfold structOf at h
  split at h
  next column more =>
    by_cases hcolumn : column = ""
    · rw [if_pos hcolumn] at h
      cases h
    · rw [if_neg hcolumn] at h
      obtain ⟨values, -, hpure⟩ := Checks.bind_eq_ok.mp h
      cases hpure
      exact hcolumn
  next => cases h

theorem isNamed_of_ofJson {v : Json} {f : Format} (h : ofJson v = .ok f) : f.IsNamed := by
  unfold ofJson at h
  split at h
  next => exact isNamed_of_ofName h
  next =>
    unfold ofList at h
    split at h
    next => cases h
    next =>
      split at h
      next => exact isNamed_of_structOf h
      next =>
        split at h
        next => exact isNamed_of_ofName h
        next => cases h
    next => cases h
  next => cases h

/-! ## As a value -/

theorem keyInList_mapM (values : List String) :
    (values.map Json.str).mapM keyInList = .ok values := by
  rw [Checks.mapM_eq_ok, List.map_map]
  rfl

/-- The value that a format is printed as reads back as the format. -/
theorem ofJson_toJson {f : Format} (h : f.IsNamed) : ofJson f.toJson = .ok f := by
  cases f with
  | struct column values =>
    have hcolumn : column ≠ "" := h
    show structOf (.str column :: if values.isEmpty then [] else [.arr (values.map .str)]) = _
    rw [structOf, if_neg hcolumn]
    cases values with
    | nil => rfl
    | cons key keys => exact Checks.bind_eq_ok.mpr ⟨key :: keys, keyInList_mapM _, rfl⟩
  | _ => rfl

/-! ## As text -/

theorem isTextual_strs (depth : Nat) (values : List String) :
    Json.IsTextual (depth + 1) (.arr (values.map .str)) := by
  refine .arr fun v hv => ?_
  obtain ⟨s, -, rfl⟩ := List.mem_map.mp hv
  exact .str s

/-- A format with keys is printed as a list of texts and of a list of texts. -/
theorem isTextual_toJson_struct (column : String) (values : List String) :
    Json.IsTextual Json.State.maxDepth (toJson (.struct column values)) := by
  refine .arr fun v hv => ?_
  simp only [List.cons_append, List.nil_append, List.mem_cons] at hv
  rcases hv with rfl | rfl | hv
  · exact .str _
  · exact .str _
  · split at hv
    · cases hv
    · rw [List.mem_singleton.mp hv]
      exact isTextual_strs _ values

/-- The text of a list is not trimmed. -/
theorem trim_compact_arr (xs : List Json) :
    Text.trim (Json.arr xs).compact = (Json.arr xs).compact := by
  rw [Text.trim, Text.trimChars_of_ends, String.ofList_toList]
  · rw [Json.toList_compact_arr]
    intro c hc
    cases hc
    decide
  · rw [Json.toList_compact_arr, ← List.cons_append, List.getLast?_append]
    intro c hc
    cases hc
    decide

/-- The text of a list is read as the value that the list is. -/
theorem ofText_compact_arr {xs : List Json} (h : Json.IsTextual Json.State.maxDepth (.arr xs)) :
    ofText (Json.arr xs).compact = ofJson (.arr xs) := by
  unfold ofText
  dsimp only
  rw [trim_compact_arr, Json.toList_compact_arr, List.head?_cons, if_pos rfl, Json.parse?_compact h]

/-- The text that a format is printed as is read as its value is. -/
theorem ofText_text (f : Format) : ofText f.text = ofJson f.toJson := by
  cases f with
  | struct column values => exact ofText_compact_arr (isTextual_toJson_struct column values)
  | _ => rfl

/-- The formats that some value writes are the named ones. -/
theorem exists_ofJson_iff {f : Format} : (∃ v, ofJson v = .ok f) ↔ f.IsNamed :=
  ⟨fun ⟨_, h⟩ => isNamed_of_ofJson h, fun h => ⟨f.toJson, ofJson_toJson h⟩⟩

/-- **Formats read back.**  Every format can be written, whatever texts its keys are, but for an
empty column key.  However it was written, the value and the text that it is printed as are read as
this format again. -/
theorem ofJson_roundTrip (f : Format) :
    ((∃ v, ofJson v = .ok f) ↔ f.IsNamed) ∧
    ∀ v, ofJson v = .ok f → ofJson f.toJson = .ok f ∧ ofText f.text = .ok f := by
  refine ⟨exists_ofJson_iff, fun v h => ?_⟩
  have hvalue := ofJson_toJson (isNamed_of_ofJson h)
  exact ⟨hvalue, by rw [ofText_text, hvalue]⟩

/-- Keys with blanks, commas, quotes, brackets and control characters, and an empty one. -/
theorem ofJson_roundTrip_oddKeys :
    ofJson (.arr [.str "struct", .str " [\"id\", ", .arr [.str "", .str "a,b", .str "\n\x01\\"]]) =
        .ok (.struct " [\"id\", " ["", "a,b", "\n\x01\\"]) ∧
      ofText (text (.struct " [\"id\", " ["", "a,b", "\n\x01\\"])) =
        .ok (.struct " [\"id\", " ["", "a,b", "\n\x01\\"]) := by
  have h : ofJson
      (.arr [.str "struct", .str " [\"id\", ", .arr [.str "", .str "a,b", .str "\n\x01\\"]]) =
        .ok (.struct " [\"id\", " ["", "a,b", "\n\x01\\"]) := by rfl
  exact ⟨h, ((ofJson_roundTrip _).2 _ h).2⟩

end QueryScript.Format
