import Mathlib.Data.List.Forall2
import QueryScript.Proofs.Definition.CteNames
import QueryScript.Proofs.Definition.Written
import QueryScript.Proofs.Guard.Markers

/-!
# Definitions in another order

The items of a definition can be put in another order, and so can those of the definitions that
stand under the keys `query`, `else` and `clauses` anywhere in it.  `Json.Reordered` does this to
one definition; its flag tells whether the value stands where a definition is expected, so that
lists of arguments keep their order.  `Json.Reorders` does it any number of times.

The tree that is read from the value changes with it, but not what its items are: each of them is
one of the items before, but for the order inside it (`Json.Writes.of_reordered`).  What a step is
told by, its keys and the texts in its values, does not change at all, so the same common table
expressions are declared (`contains_collect_of_reordered`).
-/

namespace QueryScript

/-- The second value is the first with the items of at most one definition in another order; the
flag tells whether the values stand where a definition is expected. -/
inductive Json.Reordered : Bool → Json → Json → Prop where
  | refl (isDefinition : Bool) (v : Json) : Reordered isDefinition v v
  | items {xs ys : List Json} (h : xs.Perm ys) : Reordered true (.arr xs) (.arr ys)
  | item {isDefinition : Bool} (before after : List Json) {v w : Json} (h : Reordered false v w) :
      Reordered isDefinition (.arr (before ++ v :: after)) (.arr (before ++ w :: after))
  | entry {isDefinition : Bool} (before after : Entries) {key : String} {v w : Json}
      (h : Reordered (Guard.isNestedKey key) v w) :
      Reordered isDefinition (.obj (before ++ (key, v) :: after))
        (.obj (before ++ (key, w) :: after))

/-- The definitions in a value, its own items and those of the definitions nested in it, are put
in another order, one after the other. -/
inductive Json.Reorders (value : Json) : Json → Prop where
  | refl : Reorders value value
  | step {v w : Json} (h : Reorders value v) (hstep : v.Reordered true w) : Reorders value w

/-- Entries with the same keys, whose values differ in the order of definitions. -/
def Entries.Reordered (es fs : Entries) : Prop :=
  List.Forall₂ (fun e f => e.1 = f.1 ∧ Json.Reordered (Guard.isNestedKey e.1) e.2 f.2) es fs

/-- Each of the second items is one of the first, but for the order inside it. -/
def Json.ItemsFrom (xs ys : List Json) : Prop :=
  ∀ y ∈ ys, ∃ x ∈ xs, x.Reordered false y

namespace Json.Reordered

variable {isDefinition : Bool} {v w : Json}

/-- Reordering can be undone by reordering. -/
theorem symm (h : Reordered isDefinition v w) : Reordered isDefinition w v := by
  induction h with
  | refl => exact .refl _ _
  | items h => exact .items h.symm
  | item before after _ ih => exact .item before after ih
  | entry before after _ ih => exact .entry before after ih

/-- A list comes from a list with the same items. -/
theorem exists_arr {ys : List Json} (h : Reordered isDefinition v (.arr ys)) :
    ∃ xs, v = .arr xs ∧ ItemsFrom xs ys := by
  cases h with
  | refl => exact ⟨ys, rfl, fun y hy => ⟨y, hy, .refl _ y⟩⟩
  | @items xs _ hperm => exact ⟨xs, rfl, fun y hy => ⟨y, hperm.mem_iff.mpr hy, .refl _ y⟩⟩
  | @item _ before after v w h =>
    refine ⟨before ++ v :: after, rfl, fun y hy => ?_⟩
    rcases List.mem_append.mp hy with hy | hy
    · exact ⟨y, List.mem_append_left _ hy, .refl _ y⟩
    · rcases List.mem_cons.mp hy with rfl | hy
      · exact ⟨v, List.mem_append_right _ List.mem_cons_self, h⟩
      · exact ⟨y, List.mem_append_right _ (List.mem_cons_of_mem _ hy), .refl _ y⟩

/-- Where no definition is expected, the items keep their places. -/
theorem forall₂ {xs ys : List Json} (h : Reordered false (.arr xs) (.arr ys)) :
    List.Forall₂ (Reordered false) xs ys := by
  have hsame : ∀ zs : List Json, List.Forall₂ (Reordered false) zs zs :=
    fun _ => List.forall₂_same.mpr fun _ _ => .refl _ _
  cases h with
  | refl => exact hsame xs
  | item before after h => exact List.rel_append (hsame before) (.cons h (hsame after))

/-- An object comes from an object that differs in the same way, wherever it stands. -/
theorem inner_of_obj {fs : Entries} (h : Reordered isDefinition v (.obj fs)) :
    Reordered false v (.obj fs) := by
  cases h with
  | refl => exact .refl _ _
  | entry before after h => exact .entry before after h

/-- Reordering changes no text. -/
theorem string?_eq (h : Reordered isDefinition v w) : v.string? = w.string? := by
  cases h <;> rfl

theorem isObject_eq (h : Reordered isDefinition v w) : v.isObject = w.isObject := by
  cases h <;> rfl

/-- Where one list has nothing but objects, so has the other. -/
theorem all_isObject_eq {xs ys : List Json} (h : Reordered isDefinition (.arr xs) (.arr ys)) :
    xs.all Json.isObject = ys.all Json.isObject := by
  have hpasses : ∀ {xs ys : List Json}, ItemsFrom xs ys →
      xs.all Json.isObject = true → ys.all Json.isObject = true := by
    intro xs ys hfrom hall
    refine List.all_eq_true.mpr fun y hy => ?_
    obtain ⟨x, hx, hxy⟩ := hfrom y hy
    rw [← hxy.isObject_eq]
    exact List.all_eq_true.mp hall x hx
  obtain ⟨_, heq, hfrom⟩ := h.exists_arr
  cases heq
  obtain ⟨_, heq, hback⟩ := h.symm.exists_arr
  cases heq
  exact Bool.eq_iff_iff.mpr ⟨hpasses hfrom, hpasses hback⟩

end Json.Reordered

/-! ## Entries -/

namespace Entries

variable {es fs : Entries} {key : String} {v w : Json}

/-- Entries are a reordering of themselves. -/
theorem Reordered.refl (es : Entries) : Reordered es es :=
  List.forall₂_same.mpr fun _ _ => ⟨rfl, .refl _ _⟩

/-- The entries stand in one order: only values are reordered. -/
theorem Reordered.keys_eq (h : Reordered es fs) : keys es = keys fs := by
  induction h with
  | nil => rfl
  | cons hentry _ ih =>
    simp only [keys, List.map_cons, hentry.1] at ih ⊢
    rw [ih]

/-- An entry comes from one with the same key. -/
theorem Reordered.exists_mem (h : Reordered es fs) (hw : (key, w) ∈ fs) :
    ∃ v, (key, v) ∈ es ∧ v.Reordered (Guard.isNestedKey key) w := by
  induction h with
  | nil => cases hw
  | @cons e f _ _ hentry _ ih =>
    obtain ⟨k, v⟩ := e
    rcases List.mem_cons.mp hw with rfl | hw
    · obtain ⟨rfl, hvalue⟩ := hentry
      exact ⟨v, List.mem_cons_self, hvalue⟩
    · obtain ⟨v, hv, hvw⟩ := ih hw
      exact ⟨v, List.mem_cons_of_mem _ hv, hvw⟩

/-- The value under a key comes from the value under the same key. -/
theorem Reordered.exists_get? (h : Reordered es fs) (hw : get? fs key = some w) :
    ∃ v, get? es key = some v ∧ v.Reordered (Guard.isNestedKey key) w := by
  induction h with
  | nil => cases hw
  | @cons e f _ _ hentry _ ih =>
    obtain ⟨k, v⟩ := e
    obtain ⟨k', w'⟩ := f
    obtain ⟨hkey, hvalue⟩ := hentry
    dsimp only at hkey hvalue
    subst hkey
    rw [get?] at hw ⊢
    by_cases hk : k = key
    · rw [if_pos hk] at hw ⊢
      obtain rfl := Option.some.inj hw
      exact ⟨v, rfl, hk ▸ hvalue⟩
    · rw [if_neg hk] at hw ⊢
      exact ih hw

/-- A key without a value after reordering had none before. -/
theorem Reordered.get?_eq_none (h : Reordered es fs) (hnone : get? fs key = none) :
    get? es key = none := by
  rw [get?_eq_none_iff] at hnone ⊢
  rwa [h.keys_eq]

/-- Whatever is read from the value under a key alike in both orders is alike. -/
theorem Reordered.bind_get?_eq {α : Type} (h : Reordered es fs) {read : Json → Option α}
    (hread : ∀ {v w : Json}, v.Reordered (Guard.isNestedKey key) w → read v = read w) :
    (get? es key).bind read = (get? fs key).bind read := by
  cases hw : get? fs key with
  | none => rw [h.get?_eq_none hw]
  | some w =>
    obtain ⟨v, hv, hvw⟩ := h.exists_get? hw
    rw [hv]
    exact hread hvw

end Entries

/-- An object comes from an object with the same keys. -/
theorem Json.Reordered.exists_obj {isDefinition : Bool} {v : Json} {fs : Entries}
    (h : Reordered isDefinition v (.obj fs)) : ∃ es, v = .obj es ∧ Entries.Reordered es fs := by
  cases h with
  | refl => exact ⟨fs, rfl, .refl fs⟩
  | @entry _ before after key v w h =>
    refine ⟨_, rfl, ?_⟩
    exact List.rel_append (Entries.Reordered.refl before)
      (.cons ⟨rfl, h⟩ (Entries.Reordered.refl after))

/-! ## What a step is told by -/

section

variable {es fs : Entries} {isDefinition : Bool} {v w : Json}

/-- What a step does is told by its keys. -/
theorem Head.ofEntries?_of_reordered (h : Entries.Reordered es fs) :
    ofEntries? es = ofEntries? fs := by
  rw [ofEntries?_eq, ofEntries?_eq, h.keys_eq]

/-- A name in the value of an action is a text, and has no order. -/
theorem SubqueryTarget.nameIn?_of_reordered (h : v.Reordered isDefinition w) :
    nameIn? v = nameIn? w := by
  cases w with
  | obj fs =>
    obtain ⟨es, rfl, hes⟩ := h.exists_obj
    rw [nameIn?, nameIn?]
    cases halias : Entries.get? fs "alias" with
    | none =>
      rw [hes.get?_eq_none halias]
      exact hes.bind_get?_eq fun hvw => hvw.string?_eq
    | some w =>
      obtain ⟨v, hv, hvw⟩ := hes.exists_get? halias
      rw [hv]
      exact hvw.string?_eq
  | _ => cases h <;> rfl

/-- The name that a step declares does not depend on the order of definitions in it. -/
theorem CteNames.declared?_of_reordered (h : Entries.Reordered es fs) :
    declared? es = declared? fs := by
  have hvalue : ∀ key, SubqueryTarget.nameIn? ((Entries.get? es key).getD .null) =
      SubqueryTarget.nameIn? ((Entries.get? fs key).getD .null) := by
    intro key
    cases hw : Entries.get? fs key with
    | none => rw [h.get?_eq_none hw]
    | some w =>
      obtain ⟨v, hv, hvw⟩ := h.exists_get? hw
      rw [hv]
      exact SubqueryTarget.nameIn?_of_reordered hvw
  have halias : (Entries.get? es "alias").bind Json.string? =
      (Entries.get? fs "alias").bind Json.string? := h.bind_get?_eq fun hvw => hvw.string?_eq
  unfold declared?
  rw [Head.ofEntries?_of_reordered h]
  split
  · simp only [SubqueryTarget.of, hvalue, halias]
  · rfl

end

/-! ## What hangs on a step -/

namespace Entries

variable {es fs : Entries} {isDefinition : Bool} {key : String} {v w : Json} {slot : Slot}
  {ys : List Json}

theorem exists_array? (h : v.Reordered isDefinition w) (hw : w.array? = some ys) :
    ∃ xs, v.array? = some xs ∧ Json.ItemsFrom xs ys := by
  cases w with
  | arr zs =>
    cases hw
    obtain ⟨xs, rfl, hfrom⟩ := h.exists_arr
    exact ⟨xs, rfl, hfrom⟩
  | _ => cases hw

theorem exists_items? (h : v.Reordered isDefinition w) (hw : w.items? = some ys) :
    ∃ xs, v.items? = some xs ∧ Json.ItemsFrom xs ys := by
  cases w with
  | arr zs =>
    cases hw
    obtain ⟨xs, rfl, hfrom⟩ := h.exists_arr
    exact ⟨xs, rfl, hfrom⟩
  | obj fs =>
    cases hw
    have hinner := h.inner_of_obj
    obtain ⟨es, rfl, -⟩ := h.exists_obj
    refine ⟨[.obj es], rfl, fun y hy => ?_⟩
    rw [List.mem_singleton.mp hy]
    exact ⟨.obj es, List.mem_singleton_self _, hinner⟩
  | _ => cases hw

/-- What is read under a key of an object comes from what is read under it before. -/
theorem Reordered.exists_bind_get? (h : Reordered es fs) {read : Json → Option (List Json)}
    (hread : ∀ {v w : Json} {ys : List Json}, v.Reordered (Guard.isNestedKey key) w →
      read w = some ys → ∃ xs, read v = some xs ∧ Json.ItemsFrom xs ys)
    (hys : (get? fs key).bind read = some ys) :
    ∃ xs, (get? es key).bind read = some xs ∧ Json.ItemsFrom xs ys := by
  obtain ⟨w, hw, hys⟩ := Option.bind_eq_some_iff.mp hys
  obtain ⟨v, hv, hvw⟩ := h.exists_get? hw
  obtain ⟨xs, hxs, hfrom⟩ := hread hvw hys
  exact ⟨xs, Option.bind_eq_some_iff.mpr ⟨v, hv, hxs⟩, hfrom⟩

theorem exists_hangingIn? {route : Route} (h : v.Reordered false w)
    (hw : hangingIn? key route w = some (slot, ys)) :
    ∃ xs, hangingIn? key route v = some (slot, xs) ∧ Json.ItemsFrom xs ys := by
  cases w with
  | arr zs =>
    obtain ⟨xs, rfl, hfrom⟩ := h.exists_arr
    rw [hangingIn?] at hw ⊢
    rw [h.all_isObject_eq]
    split at hw
    next hhangs =>
      cases hw
      exact ⟨xs, if_pos hhangs, hfrom⟩
    next => cases hw
  | obj ws =>
    obtain ⟨vs, rfl, hvs⟩ := h.exists_obj
    rw [hangingIn?] at hw ⊢
    split at hw
    next hneeds =>
      obtain ⟨zs, hzs, heq⟩ := Option.map_eq_some_iff.mp hw
      cases heq
      obtain ⟨xs, hxs, hfrom⟩ := hvs.exists_bind_get? exists_array? hzs
      exact ⟨xs, by rw [if_pos hneeds, hxs]; rfl, hfrom⟩
    next hneeds =>
      split at hw
      next haccepts =>
        obtain ⟨zs, hzs, heq⟩ := Option.map_eq_some_iff.mp hw
        cases heq
        obtain ⟨xs, hxs, hfrom⟩ := hvs.exists_bind_get? exists_items? hzs
        exact ⟨xs, by rw [if_neg hneeds, if_pos haccepts, hxs]; rfl, hfrom⟩
      next => cases hw
  | _ => cases hw

/-- Under a key that is not one of nested definitions only what is inside can be in another
order. -/
theorem inner_of_ofKey? (h : v.Reordered (Guard.isNestedKey key) w)
    (hkey : Slot.ofKey? key = none) : v.Reordered false w := by
  cases hnested : Guard.isNestedKey key with
  | false => exact hnested ▸ h
  | true =>
    rcases Guard.eq_of_isNestedKey hnested with rfl | rfl | rfl <;> cases hkey

/-- What hangs under a key comes from what hangs there before. -/
theorem exists_hangingAt? (h : v.Reordered (Guard.isNestedKey key) w)
    (hw : hangingAt? key w = some (slot, ys)) :
    ∃ xs, hangingAt? key v = some (slot, xs) ∧ Json.ItemsFrom xs ys := by
  unfold hangingAt? at hw ⊢
  cases hkey : Slot.ofKey? key with
  | some own =>
    rw [hkey] at hw
    obtain ⟨zs, hzs, heq⟩ := Option.map_eq_some_iff.mp hw
    cases heq
    obtain ⟨xs, hxs, hfrom⟩ := exists_items? h hzs
    exact ⟨xs, Option.map_eq_some_iff.mpr ⟨xs, hxs, rfl⟩, hfrom⟩
  | none =>
    rw [hkey] at hw
    dsimp only at hw ⊢
    split at hw
    · cases hw
    next hreserved =>
      obtain ⟨route, hroute, hw⟩ := Option.bind_eq_some_iff.mp hw
      obtain ⟨xs, hxs, hfrom⟩ := exists_hangingIn? (inner_of_ofKey? h hkey) hw
      rw [if_neg hreserved]
      exact ⟨xs, Option.bind_eq_some_iff.mpr ⟨route, hroute, hxs⟩, hfrom⟩

end Entries

/-! ## What is written in a definition -/

/-- **The items that are written are the same**, but for the order of the lists and the order of
what is inside. -/
theorem Json.Writes.of_reordered {value value' : Json} (h : value.Reordered true value')
    {ys : List Json} (hys : value'.Writes ys) : ∃ xs, value.Writes xs ∧ ItemsFrom xs ys := by
  induction hys with
  | top heq =>
    subst heq
    obtain ⟨xs, heq, hfrom⟩ := h.exists_arr
    exact ⟨xs, .top heq, hfrom⟩
  | nested _ hitem hhangs ih =>
    obtain ⟨xs, hxs, hfrom⟩ := ih
    obtain ⟨x, hx, hreordered⟩ := hfrom _ hitem
    obtain ⟨es, rfl, hes⟩ := hreordered.exists_obj
    obtain ⟨⟨key, w⟩, hw, hat⟩ := List.mem_filterMap.mp hhangs
    obtain ⟨v, hv, hvw⟩ := hes.exists_mem hw
    obtain ⟨zs, hzs, hbelow⟩ := Entries.exists_hangingAt? hvw hat
    exact ⟨zs, hxs.nested hx (List.mem_filterMap.mpr ⟨(key, v), hv, hzs⟩), hbelow⟩

/-- A step that is written comes from a step that is written before. -/
theorem Json.exists_step_of_reordered {value value' : Json} (h : value.Reordered true value')
    {ys : List Json} {fs : Entries} (hys : value'.Writes ys) (hfs : .obj fs ∈ ys) :
    ∃ xs es, value.Writes xs ∧ .obj es ∈ xs ∧ Entries.Reordered es fs := by
  obtain ⟨xs, hxs, hfrom⟩ := hys.of_reordered h
  obtain ⟨x, hx, hreordered⟩ := hfrom _ hfs
  obtain ⟨es, rfl, hes⟩ := hreordered.exists_obj
  exact ⟨xs, es, hxs, hx, hes⟩

/-- The steps of a tree are those that are written. -/
theorem Definition.hasItem_step_iff_writes {value : Json} {definition : Definition}
    (h : Definition.ofJson value = .ok definition) {es : Entries} :
    (∃ nested, definition.HasItem (.step es nested)) ↔
      ∃ xs, value.Writes xs ∧ .obj es ∈ xs := by
  constructor
  · intro hitem
    obtain ⟨nested, hitem⟩ := hitem
    exact exists_writes_of_hasItem h hitem
  · intro hwritten
    obtain ⟨xs, hxs, hes⟩ := hwritten
    have hread := List.mem_map_of_mem (f := Item.ofJson) hes
    rw [← Item.ofItems_eq_map] at hread
    exact ⟨_, hasItem_iff.mpr ⟨_, (part_iff_writes h).mpr ⟨xs, hxs, rfl⟩, hread⟩⟩

/-- **The names that are collected do not depend on the order.** -/
theorem CteNames.contains_collect_of_reordered {value value' : Json}
    (h : value.Reordered true value') {definition definition' : Definition}
    (hread : Definition.ofJson value = .ok definition)
    (hread' : Definition.ofJson value' = .ok definition') (name : String) :
    (collect definition).contains name = (collect definition').contains name := by
  have hdeclares : ∀ {value value' : Json} {d d' : Definition}, value.Reordered true value' →
      Definition.ofJson value = .ok d → Definition.ofJson value' = .ok d' →
      (collect d').contains name = true → (collect d).contains name = true := by
    intro value value' d d' h hread hread' hcontains
    rw [contains_collect_iff] at hcontains ⊢
    obtain ⟨_, hitem, fs, nested, declared, rfl, hdeclared, hlower⟩ := hcontains
    obtain ⟨ys, hys, hfs⟩ := (Definition.hasItem_step_iff_writes hread').mp ⟨nested, hitem⟩
    obtain ⟨xs, es, hxs, hes, hreordered⟩ := Json.exists_step_of_reordered h hys hfs
    obtain ⟨nested', hitem'⟩ := (Definition.hasItem_step_iff_writes hread).mpr ⟨xs, hxs, hes⟩
    rw [← declared?_of_reordered hreordered] at hdeclared
    exact ⟨_, hitem', es, nested', declared, rfl, hdeclared, hlower⟩
  exact Bool.eq_iff_iff.mpr ⟨hdeclares h.symm hread' hread, hdeclares h hread hread'⟩

end QueryScript
