import QueryScript.Proofs.Json.Keys
import QueryScript.Vocabulary.Arguments
import Mathlib.Data.List.DropRight

/-!
# Named arguments in their positions

A layout puts named arguments in order.  A parameter takes a position if it is given, and also if it
must be given and one behind it is: then `null` holds its position (`Layout.Takes`).  So the arguments
are those of the parameters that take a position, in the order of the layout
(`Layout.arrange_eq_map_filter`); this is read off one parameter at a time (`Layout.arrange_cons`).

Of an object, the layout sees no more than what its own names find in it (`Layout.arrange_congr`).
So neither the order of the entries nor entries under other names make a difference, to the arguments
of an action or of an executor, as long as they do not make a marker of the object
(`Layout.arrange_aligned`).
-/

namespace QueryScript

namespace Entries

variable {es fs : Entries} {names : List String} {key : String}

/-- The entries under some names, in their order. -/
def under (names : List String) (es : Entries) : Entries :=
  es.filter fun entry => entry.1 ∈ names

theorem get?_under (h : key ∈ names) (es : Entries) : get? (under names es) key = get? es key := by
  induction es with
  | nil => rfl
  | cons entry es ih =>
    obtain ⟨k, v⟩ := entry
    have hcons : under names ((k, v) :: es) =
        if k ∈ names then (k, v) :: under names es else under names es := by
      simp [under, List.filter_cons]
    rw [hcons, get?, ← ih]
    by_cases hk : k = key
    · rw [if_pos (hk ▸ h), get?, if_pos hk]
    · rw [if_neg hk]
      split
      · rw [get?, if_neg hk]
      · rfl

/-- Entries under the names that are the same up to order are found alike. -/
theorem get?_of_perm_under (hfs : (keys fs).Nodup)
    (h : (under names es).Perm (under names fs)) (hkey : key ∈ names) :
    get? es key = get? fs key := by
  have hunder : (keys (under names fs)).Nodup := hfs.sublist (List.filter_sublist.map Prod.fst)
  rw [← get?_under hkey es, ← get?_under hkey fs, get?_of_perm h hunder]

end Entries

namespace Layout

variable {layout rest : Layout} {p q : Parameter} {es fs : Entries}

/-- The names of the arguments, in positional order. -/
def names (layout : Layout) : List String :=
  layout.map Parameter.key

/-- The value that is given for a parameter, `null` if there is none. -/
def valueOf (es : Entries) (p : Parameter) : Json :=
  (Entries.get? es p.key).getD .null

/-- A parameter takes a position: it is given, or it must be and one that it precedes is given. -/
def Takes (layout : Layout) (es : Entries) (p : Parameter) : Prop :=
  Entries.has es p.key = true ∨
    p.required = true ∧ ∃ q ∈ layout, [p, q].Sublist layout ∧ Entries.has es q.key = true

instance (layout : Layout) (es : Entries) (p : Parameter) : Decidable (layout.Takes es p) :=
  inferInstanceAs (Decidable (_ ∨ _ ∧ ∃ q ∈ layout, _ ∧ _))

/-! ## One parameter at a time -/

/-- Nothing is left of a layout if nothing of it is given. -/
theorem given_eq_nil_iff : layout.given es = [] ↔ ¬ ∃ p ∈ layout, Entries.has es p.key = true := by
  rw [show layout.given es = List.rdropWhile _ layout from rfl, List.rdropWhile_eq_nil_iff]
  simp

theorem given_cons_of_ne_nil (h : rest.given es ≠ []) : given (p :: rest) es = p :: rest.given es := by
  unfold given at h ⊢
  rw [Ne, List.reverse_eq_nil_iff] at h
  rw [List.reverse_cons, List.dropWhile_append, if_neg (by rwa [List.isEmpty_iff]),
    List.reverse_append]
  rfl

theorem given_cons_of_eq_nil (h : rest.given es = []) :
    given (p :: rest) es = if Entries.has es p.key = true then [p] else [] := by
  unfold given at h ⊢
  rw [List.reverse_eq_nil_iff] at h
  rw [List.reverse_cons, List.dropWhile_append, if_pos (by rw [h]; rfl)]
  cases hp : Entries.has es p.key with
  | true => simp [hp]
  | false => simp [hp]

/-- A parameter contributes its value if it is given or required, and nothing otherwise. -/
theorem contribution_eq (es : Entries) (p : Parameter) :
    contribution es p =
      if Entries.has es p.key = true ∨ p.required = true then [valueOf es p] else [] := by
  unfold contribution valueOf Entries.has
  cases Entries.get? es p.key with
  | some v => rfl
  | none => simp

/-- The first parameter comes first if it takes a position, which depends on whether something is
given behind it. -/
theorem arrange_cons (p : Parameter) (rest : Layout) (es : Entries) :
    arrange (p :: rest) es =
      (if Entries.has es p.key = true ∨ p.required = true ∧ ∃ q ∈ rest, Entries.has es q.key = true
        then [valueOf es p] else []) ++ arrange rest es := by
  unfold arrange
  by_cases hrest : ∃ q ∈ rest, Entries.has es q.key = true
  · have hsome : rest.given es ≠ [] := fun h => given_eq_nil_iff.mp h hrest
    rw [given_cons_of_ne_nil hsome, List.flatMap_cons, contribution_eq]
    simp only [hrest, and_true]
  · have hnone : rest.given es = [] := given_eq_nil_iff.mpr hrest
    rw [given_cons_of_eq_nil hnone, hnone]
    simp only [hrest, and_false, or_false]
    split
    next hp => rw [List.flatMap_singleton, contribution_eq, if_pos (.inl hp)]; rfl
    next => rfl

theorem takes_cons_self :
    Takes (p :: rest) es p ↔
      Entries.has es p.key = true ∨ p.required = true ∧ ∃ q ∈ rest, Entries.has es q.key = true := by
  have hbehind : ∀ q, [p, q].Sublist (p :: rest) ↔ q ∈ rest := fun q => by
    rw [List.cons_sublist_cons, List.singleton_sublist]
  simp only [Takes, hbehind, List.mem_cons]
  constructor
  · exact Or.imp_right fun ⟨hp, q, _, hq, hgiven⟩ => ⟨hp, q, hq, hgiven⟩
  · exact Or.imp_right fun ⟨hp, q, hq, hgiven⟩ => ⟨hp, q, .inr hq, hq, hgiven⟩

theorem takes_cons_of_ne (h : q ≠ p) : Takes (p :: rest) es q ↔ Takes rest es q := by
  have hbehind : ∀ r, [q, r].Sublist (p :: rest) ↔ [q, r].Sublist rest := fun r => by
    rw [List.cons_sublist_cons', or_iff_left fun heq => h heq.1]
  simp only [Takes, hbehind, List.mem_cons]
  constructor
  · exact Or.imp_right fun ⟨hq, r, _, hr, hgiven⟩ => ⟨hq, r, hr.subset (by simp), hr, hgiven⟩
  · exact Or.imp_right fun ⟨hq, r, hmem, hr, hgiven⟩ => ⟨hq, r, .inr hmem, hr, hgiven⟩

/-- The arguments are those of the parameters that take a position, each in its turn. -/
theorem arrange_eq_map_filter (h : layout.names.Nodup) :
    layout.arrange es = (layout.filter fun p => layout.Takes es p).map (valueOf es) := by
  induction layout with
  | nil => rfl
  | cons p rest ih =>
    obtain ⟨hfresh, hrest⟩ := List.nodup_cons.mp h
    -- the parameters behind the first have other names, so it changes nothing for them
    have hbehind : rest.filter (fun q => Takes (p :: rest) es q) =
        rest.filter fun q => Takes rest es q := by
      refine List.filter_congr fun q hq => ?_
      have hne : q ≠ p := by
        rintro rfl
        exact hfresh (List.mem_map_of_mem hq)
      rw [decide_eq_decide, takes_cons_of_ne hne]
    rw [arrange_cons, ih hrest, List.filter_cons, hbehind]
    by_cases hp : Takes (p :: rest) es p
    · rw [if_pos (takes_cons_self.mp hp), if_pos (decide_eq_true hp)]
      rfl
    · rw [if_neg fun h => hp (takes_cons_self.mpr h), if_neg (by simpa using hp)]
      rfl

/-! ## What the arguments depend on -/

/-- Objects in which the names of a layout find the same give the same arguments. -/
theorem arrange_congr (h : ∀ key ∈ layout.names, Entries.get? es key = Entries.get? fs key) :
    layout.arrange es = layout.arrange fs := by
  induction layout with
  | nil => rfl
  | cons p rest ih =>
    obtain ⟨hp, hrest⟩ := List.forall_mem_cons.mp h
    have hhas : ∀ q ∈ p :: rest, Entries.has es q.key = Entries.has fs q.key := fun q hq => by
      rw [Entries.has, Entries.has, h q.key (List.mem_map_of_mem hq)]
    have hbehind : (∃ q ∈ rest, Entries.has es q.key = true) ↔
        ∃ q ∈ rest, Entries.has fs q.key = true := by
      refine exists_congr fun q => and_congr_right fun hq => ?_
      rw [hhas q (List.mem_cons_of_mem _ hq)]
    have hvalue : valueOf es p = valueOf fs p := by
      rw [valueOf, valueOf, hp]
    rw [arrange_cons, arrange_cons, ih hrest, hhas p (List.mem_cons_self ..), hvalue]
    simp only [hbehind]

/-- A first parameter that must be given comes first as soon as anything is given. -/
theorem head?_arrange (hrequired : p.required = true)
    (hgiven : ∃ q ∈ p :: rest, Entries.has es q.key = true) :
    (arrange (p :: rest) es).head? = some (valueOf es p) := by
  rw [arrange_cons, if_pos]
  · rfl
  · obtain ⟨q, hq, hgiven⟩ := hgiven
    rcases List.mem_cons.mp hq with rfl | hq
    · exact .inl hgiven
    · exact .inr ⟨hrequired, q, hq, hgiven⟩

end Layout

/-! ## Objects with other entries -/

/-- The keys that make a marker of an object. -/
def Json.markerKeys : List String := [paramKey, rawKey]

/-- `fs` has the entries of `es` in any order, and besides them entries under other names only. -/
def Entries.Extends (names : List String) (es fs : Entries) : Prop :=
  ∃ extra : Entries, fs.Perm (es ++ extra) ∧ ∀ key ∈ extra.keys, key ∉ names

theorem Entries.Extends.perm_under {names : List String} {es fs : Entries}
    (h : es.Extends names fs) : (under names fs).Perm (under names es) := by
  obtain ⟨extra, hperm, hother⟩ := h
  have hnone : under names extra = [] := by
    refine List.filter_eq_nil_iff.mpr fun entry hentry => ?_
    simpa using hother entry.1 (List.mem_map_of_mem hentry)
  have hunder := hperm.filter fun entry => decide (entry.1 ∈ names)
  rw [List.filter_append] at hunder
  show List.Perm _ (es.under names)
  rw [← List.append_nil (es.under names), ← hnone]
  exact hunder

variable {es fs : Entries}

theorem Json.isMarker_congr (h : ∀ key ∈ markerKeys, Entries.get? es key = Entries.get? fs key) :
    (Json.obj es).isMarker = (Json.obj fs).isMarker := by
  obtain ⟨hparam, hraw⟩ := List.forall_mem_cons.mp h
  rw [isMarker, isMarker, paramName?, paramName?, rawPayload?, rawPayload?, hparam,
    List.forall_mem_singleton.mp hraw]

namespace Layout

variable {layout : Layout} {base : String} {route : Route} {executor : Executor}

theorem actionArguments_obj (hmarker : (Json.obj es).isMarker = false)
    (h : ofAction? base route = some layout) :
    actionArguments base route (.obj es) = layout.arrange es := by
  rw [actionArguments, hmarker, h]
  rfl

theorem executorArguments_obj (hmarker : (Json.obj es).isMarker = false) :
    executorArguments executor (.obj es) = (ofExecutor executor).arrange es := by
  rw [executorArguments, hmarker]
  rfl

/-- Entries under other names make no marker of an object, and give no further arguments. -/
theorem arrange_of_extends (hes : (Entries.keys es).Nodup)
    (hmarker : (Json.obj es).isMarker = false)
    (h : es.Extends (layout.names ++ Json.markerKeys) fs) :
    (Json.obj fs).isMarker = false ∧ layout.arrange fs = layout.arrange es := by
  have hfinds : ∀ key ∈ layout.names ++ Json.markerKeys,
      Entries.get? fs key = Entries.get? es key :=
    fun key hkey => Entries.get?_of_perm_under hes h.perm_under hkey
  constructor
  · rw [Json.isMarker_congr fun key hkey => hfinds key (List.mem_append_right _ hkey), hmarker]
  · exact arrange_congr fun key hkey => hfinds key (List.mem_append_left _ hkey)

/-- **Named arguments keep their positions.**  An object gives the arguments of the parameters that
take a position, in the order of the layout: what is given for them, or `null`.  It is only seen
under the names of the layout, without regard to order; and a first parameter that must be given
stands first as soon as anything is given.  So objects in another order, with more entries under
names that are neither in the layout nor those of markers, make no difference to any action with a
layout or to any executor. -/
theorem arrange_aligned (hlayout : layout.names.Nodup) (hes : (Entries.keys es).Nodup) :
    layout.arrange es = (layout.filter fun p => layout.Takes es p).map (valueOf es) ∧
      (∀ fs, (Entries.under layout.names fs).Perm (Entries.under layout.names es) →
        layout.arrange fs = layout.arrange es) ∧
      (∀ p rest, layout = p :: rest → p.required = true →
        (∃ q ∈ layout, Entries.has es q.key = true) →
        (layout.arrange es).head? = some (valueOf es p)) ∧
      ∀ fs, (Json.obj es).isMarker = false →
        (∀ base route own, ofAction? base route = some own →
          es.Extends (own.names ++ Json.markerKeys) fs →
          actionArguments base route (.obj fs) = actionArguments base route (.obj es)) ∧
        ∀ executor, es.Extends ((ofExecutor executor).names ++ Json.markerKeys) fs →
          executorArguments executor (.obj fs) = executorArguments executor (.obj es) := by
  refine ⟨arrange_eq_map_filter hlayout, fun fs hperm => ?_, ?_, fun fs hmarker => ⟨?_, ?_⟩⟩
  · exact arrange_congr fun key hkey => Entries.get?_of_perm_under hes hperm hkey
  · rintro p rest rfl hrequired hgiven
    exact head?_arrange hrequired hgiven
  · intro base route own hown hextends
    obtain ⟨hmarker', harrange⟩ := arrange_of_extends hes hmarker hextends
    rw [actionArguments_obj hmarker' hown, actionArguments_obj hmarker hown, harrange]
  · intro executor hextends
    obtain ⟨hmarker', harrange⟩ := arrange_of_extends hes hmarker hextends
    rw [executorArguments_obj hmarker', executorArguments_obj hmarker, harrange]

/-- The layout of a comparison. -/
def comparison : Layout := [.must "column", .may "operator", .must "value"]

/-- A value that is given without a column to compare it with. -/
def valueOnly : Entries := [("value", .str "active")]

/-- The same with a note. -/
def notedValue : Entries := [("note", .bool true), ("value", .str "active")]

/-- `null` stands in the place of the column and nothing in that of the operator, and the note changes
nothing, though it is written first. -/
theorem arrange_aligned_valueOnly :
    comparison.names.Nodup ∧ valueOnly.keys.Nodup ∧
      comparison.arrange valueOnly = [.null, .str "active"] ∧
      ofAction? "where" .whereClause = some comparison ∧
      (Json.obj valueOnly).isMarker = false ∧
      valueOnly.Extends (comparison.names ++ Json.markerKeys) notedValue ∧
      actionArguments "where" .whereClause (.obj notedValue) = [.null, .str "active"] := by
  have hlayout : comparison.names.Nodup := by decide +kernel
  have hkeys : valueOnly.keys.Nodup := by decide +kernel
  have hmarker : (Json.obj valueOnly).isMarker = false := by decide +kernel
  have hextends : valueOnly.Extends (comparison.names ++ Json.markerKeys) notedValue :=
    ⟨[("note", .bool true)], List.Perm.swap .., by decide +kernel⟩
  obtain ⟨harrange, -, -, hextended⟩ := arrange_aligned hlayout hkeys
  have hnull : comparison.arrange valueOnly = [.null, .str "active"] := harrange.trans rfl
  refine ⟨hlayout, hkeys, hnull, rfl, hmarker, hextends, ?_⟩
  rw [(hextended _ hmarker).1 _ _ _ rfl hextends]
  exact (actionArguments_obj hmarker rfl).trans hnull

end Layout

end QueryScript
