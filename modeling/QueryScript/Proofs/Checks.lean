/-!
# Chains of checks

Reading and checking go through `Except`, one step after the other.  These facts take
a chain that succeeded apart into its steps (`bind_eq_ok`), and a list that was read
entry by entry into its entries (`mapM_eq_ok`).  Where it matters which failure it is,
`failure?` picks it out, so that the first failure of a list can be searched for
(`failure?_mapM`).
-/

namespace QueryScript.Checks

variable {ε α β : Type}

/-- A chain of two steps succeeds exactly when both do. -/
theorem bind_eq_ok {x : Except ε α} {f : α → Except ε β} {b : β} :
    (x >>= f) = .ok b ↔ ∃ a, x = .ok a ∧ f a = .ok b := by
  cases x with
  | error e =>
    constructor
    · intro h
      cases h
    · intro h
      obtain ⟨_, h, _⟩ := h
      cases h
  | ok a =>
    constructor
    · intro h
      exact ⟨a, rfl, h⟩
    · intro h
      obtain ⟨a', ha, h⟩ := h
      obtain rfl : a = a' := Except.ok.inj ha
      exact h

/-- Chains that go on in the same way with what the first step gives are the same. -/
theorem bind_congr {x : Except ε α} {f g : α → Except ε β} (h : ∀ a, x = .ok a → f a = g a) :
    (x >>= f) = (x >>= g) := by
  cases x with
  | error e => rfl
  | ok a => exact h a rfl

/-- A list is read exactly when every entry is, and the results are those of the entries. -/
theorem mapM_eq_ok {f : α → Except ε β} {xs : List α} :
    ∀ {ys : List β}, xs.mapM f = .ok ys ↔ xs.map f = ys.map .ok := by
  induction xs with
  | nil =>
    intro ys
    rw [List.mapM_nil, List.map_nil]
    constructor
    · intro h
      obtain rfl : [] = ys := Except.ok.inj h
      rfl
    · intro h
      rw [List.map_eq_nil_iff.mp h.symm]
      rfl
  | cons x xs ih =>
    intro ys
    rw [List.mapM_cons, bind_eq_ok, List.map_cons]
    constructor
    · intro h
      obtain ⟨y, hy, htail⟩ := h
      obtain ⟨rest, hrest, hpure⟩ := bind_eq_ok.mp htail
      obtain rfl : y :: rest = ys := Except.ok.inj hpure
      rw [hy, ih.mp hrest, List.map_cons]
    · intro h
      cases ys with
      | nil => cases h
      | cons y rest =>
        obtain ⟨hy, hrest⟩ := List.cons.inj h
        exact ⟨y, hy, bind_eq_ok.mpr ⟨rest, ih.mpr hrest, rfl⟩⟩

/-- Every result is that of some entry. -/
theorem exists_of_mem_mapM {f : α → Except ε β} {xs : List α} {ys : List β}
    (h : xs.mapM f = .ok ys) {y : β} (hy : y ∈ ys) : ∃ x ∈ xs, f x = .ok y := by
  have hmem : Except.ok y ∈ xs.map f := by
    rw [mapM_eq_ok.mp h]
    exact List.mem_map_of_mem hy
  exact List.mem_map.mp hmem

/-- Every entry has its result. -/
theorem mem_mapM_of_ok {f : α → Except ε β} {xs : List α} {ys : List β}
    (h : xs.mapM f = .ok ys) {x : α} (hx : x ∈ xs) {y : β} (hy : f x = .ok y) : y ∈ ys := by
  have hmem : f x ∈ ys.map .ok := by
    rw [← mapM_eq_ok.mp h]
    exact List.mem_map_of_mem hx
  rw [hy] at hmem
  obtain ⟨y', hy', hok⟩ := List.mem_map.mp hmem
  obtain rfl : y' = y := Except.ok.inj hok
  exact hy'

/-- Every entry of a list that is read is read. -/
theorem exists_ok_of_mapM {f : α → Except ε β} {xs : List α} {ys : List β}
    (h : xs.mapM f = .ok ys) {x : α} (hx : x ∈ xs) : ∃ y, f x = .ok y := by
  have hmem : f x ∈ ys.map .ok := by
    rw [← mapM_eq_ok.mp h]
    exact List.mem_map_of_mem hx
  obtain ⟨y, -, hy⟩ := List.mem_map.mp hmem
  exact ⟨y, hy.symm⟩

/-- Checks of a list succeed exactly when those of its entries do. -/
theorem forM_eq_ok {f : α → Except ε PUnit} {xs : List α} :
    xs.forM f = .ok () ↔ ∀ x ∈ xs, f x = .ok () := by
  induction xs with
  | nil => exact ⟨fun _ => nofun, fun _ => rfl⟩
  | cons x xs ih =>
    show (f x >>= fun _ => xs.forM f) = .ok () ↔ _
    rw [bind_eq_ok, List.forall_mem_cons, ← ih]
    exact ⟨fun ⟨_, hx, hxs⟩ => ⟨hx, hxs⟩, fun ⟨hx, hxs⟩ => ⟨(), hx, hxs⟩⟩

/-- A chain of two steps fails with the failure of the first, or of the second. -/
theorem bind_eq_error {x : Except ε α} {f : α → Except ε β} {e : ε} :
    (x >>= f) = .error e ↔ x = .error e ∨ ∃ a, x = .ok a ∧ f a = .error e := by
  cases x with
  | error e' =>
    constructor
    · intro h
      cases h
      exact .inl rfl
    · intro h
      rcases h with h | ⟨_, h, _⟩
      · cases h
        rfl
      · cases h
  | ok a =>
    constructor
    · intro h
      exact .inr ⟨a, rfl, h⟩
    · intro h
      rcases h with h | ⟨a', ha, h⟩
      · cases h
      · obtain rfl : a = a' := Except.ok.inj ha
        exact h

/-- A check that is mapped succeeds with what the result is mapped to. -/
theorem map_eq_ok {x : Except ε α} {f : α → β} {b : β} :
    x.map f = .ok b ↔ ∃ a, x = .ok a ∧ f a = b := by
  cases x <;> simp [Except.map]

/-- A result that is mapped fails as it does before. -/
theorem eq_error_of_map {x : Except ε α} {f : α → β} {e : ε} (h : x.map f = .error e) :
    x = .error e := by
  cases x with
  | error e' =>
    cases h
    rfl
  | ok a => cases h

/-- A list that is not read has an entry that is not, with the same failure. -/
theorem exists_of_mapM_eq_error {f : α → Except ε β} {xs : List α} {e : ε}
    (h : xs.mapM f = .error e) : ∃ x ∈ xs, f x = .error e := by
  induction xs with
  | nil => cases h
  | cons x xs ih =>
    rw [List.mapM_cons] at h
    rcases bind_eq_error.mp h with hx | ⟨_, -, htail⟩
    · exact ⟨x, List.mem_cons_self .., hx⟩
    · rcases bind_eq_error.mp htail with hxs | ⟨_, -, hpure⟩
      · obtain ⟨x', hx', hfails⟩ := ih hxs
        exact ⟨x', List.mem_cons_of_mem _ hx', hfails⟩
      · cases hpure

/-- A list is read if every entry is. -/
theorem exists_mapM_eq_ok {f : α → Except ε β} {xs : List α}
    (h : ∀ x ∈ xs, ∃ y, f x = .ok y) : ∃ ys, xs.mapM f = .ok ys := by
  induction xs with
  | nil => exact ⟨[], rfl⟩
  | cons x xs ih =>
    obtain ⟨y, hy⟩ := h x (List.mem_cons_self ..)
    obtain ⟨ys, hys⟩ := ih fun x' hx' => h x' (List.mem_cons_of_mem _ hx')
    refine ⟨y :: ys, mapM_eq_ok.mpr ?_⟩
    rw [List.map_cons, List.map_cons, hy, mapM_eq_ok.mp hys]

/-- Two ways of reading that agree on every entry of a list agree on the list. -/
theorem mapM_congr {f g : α → Except ε β} {xs : List α} (h : ∀ x ∈ xs, f x = g x) :
    xs.mapM f = xs.mapM g := by
  induction xs with
  | nil => rfl
  | cons x xs ih =>
    obtain ⟨hx, hxs⟩ := List.forall_mem_cons.mp h
    rw [List.mapM_cons, List.mapM_cons, hx, ih hxs]

/-- What is made of the results of a list is made of its entries, if this holds of each. -/
theorem map_eq_of_mapM {γ : Type} {f : α → Except ε β} {g : β → γ} {h : α → γ} {xs : List α}
    {ys : List β} (hread : xs.mapM f = .ok ys) (hentry : ∀ x ∈ xs, ∀ y, f x = .ok y → g y = h x) :
    ys.map g = xs.map h := by
  induction xs generalizing ys with
  | nil =>
    cases hread
    rfl
  | cons x xs ih =>
    rw [List.mapM_cons] at hread
    obtain ⟨y, hy, htail⟩ := bind_eq_ok.mp hread
    obtain ⟨rest, hrest, hpure⟩ := bind_eq_ok.mp htail
    cases hpure
    obtain ⟨hx, hxs⟩ := List.forall_mem_cons.mp hentry
    rw [List.map_cons, List.map_cons, hx y hy, ih hrest hxs]

/-! ## Failures -/

/-- The failure of a check that fails. -/
def failure? : Except ε α → Option ε
  | .error e => some e
  | .ok _ => none

theorem failure?_eq_some {x : Except ε α} {e : ε} : failure? x = some e ↔ x = .error e := by
  cases x <;> simp [failure?]

/-- Only a check that succeeds has no failure. -/
theorem failure?_eq_none {x : Except ε α} : failure? x = none ↔ ∃ a, x = .ok a := by
  cases x <;> simp [failure?]

/-- Mapping the result does not change the failure. -/
theorem failure?_map (x : Except ε α) (f : α → β) : failure? (x.map f) = failure? x := by
  cases x <;> rfl

/-- If each entry fails as the first of its parts that fails, so does the list. -/
theorem failure?_mapM {γ : Type} {f : α → Except ε β} {parts : α → List γ} {part : γ → Option ε}
    {xs : List α} (h : ∀ x ∈ xs, failure? (f x) = (parts x).findSome? part) :
    failure? (xs.mapM f) = (xs.flatMap parts).findSome? part := by
  induction xs with
  | nil => rfl
  | cons x xs ih =>
    obtain ⟨hx, hxs⟩ := List.forall_mem_cons.mp h
    rw [List.mapM_cons, List.flatMap_cons, List.findSome?_append, ← hx, ← ih hxs]
    cases f x with
    | error e => rfl
    | ok y => cases xs.mapM f <;> rfl

theorem eq_ok_of_mem_toOption {x : Except ε α} {a : α} (h : a ∈ x.toOption) : x = .ok a := by
  cases x with
  | ok b =>
    cases h
    rfl
  | error e => cases h

end QueryScript.Checks
