import QueryScript.Proofs.Json.Numbers
import QueryScript.Proofs.Recorder.Executors
import QueryScript.Proofs.TableReference.Characters
import QueryScript.Proofs.Text.Folding

/-!
# What an average writes into SQL

An average puts two texts of its caller into SQL that is not screened: a column and a fallback.
Both are read before anything is asked of the builder, and what they can be is told without the
readers (`Asks`): the column is identifiers of ASCII with dots between them, and the fallback a
number, which is printed anew.  Neither text can leave its place (`IsInert`): it has no white
space, no quote, no parenthesis, no semicolon, and no comment begins in it.  Of the signs of a
number two never stand side by side, which is a fact of how numbers are printed.
-/

namespace QueryScript.Average

open Json (renderNumber IsNumeral)
open TableReference (joinSegments)

/-! ## The column -/

/-- A letter or an underscore of ASCII, then letters, digits and underscores of ASCII. -/
def IsSegment (cs : List Char) : Prop :=
  ∃ first rest, cs = first :: rest ∧ (first.isAlpha = true ∨ first = '_') ∧
    ∀ c ∈ rest, c.isAlphanum = true ∨ c = '_'

/-- Such segments with dots between them. -/
def IsColumn (cs : List Char) : Prop :=
  ∃ segs, segs ≠ [] ∧ (∀ seg ∈ segs, IsSegment seg) ∧ cs = joinSegments segs

theorem isSegment_iff {cs : List Char} : isSegment cs = true ↔ IsSegment cs := by
  cases cs with
  | nil => exact ⟨nofun, nofun⟩
  | cons c cs =>
    simp only [isSegment, Text.isAsciiWord, Bool.and_eq_true, Bool.or_eq_true, beq_iff_eq,
      List.all_eq_true]
    constructor
    · intro h
      exact ⟨c, cs, rfl, h⟩
    · rintro ⟨first, rest, hcs, h⟩
      obtain ⟨rfl, rfl⟩ := List.cons.inj hcs
      exact h

/-- A segment consists of ASCII letters, digits and underscores. -/
theorem IsSegment.isAsciiWord {cs : List Char} (h : IsSegment cs) {c : Char} (hc : c ∈ cs) :
    Text.isAsciiWord c = true := by
  obtain ⟨first, rest, rfl, hfirst, hrest⟩ := h
  rw [Text.isAsciiWord, Bool.or_eq_true, beq_iff_eq]
  rcases List.mem_cons.mp hc with rfl | hc
  · exact hfirst.imp_left fun halpha => by rw [Char.isAlphanum, halpha, Bool.true_or]
  · exact hrest c hc

/-- No dot stands in a segment. -/
theorem IsSegment.dot_not_mem {cs : List Char} (h : IsSegment cs) : '.' ∉ cs :=
  fun hdot => absurd (h.isAsciiWord hdot) (by decide)

/-- An identifier is a text of segments with dots between them. -/
theorem isIdentifier_iff {s : String} : isIdentifier s = true ↔ IsColumn s.toList := by
  rw [isIdentifier, List.all_eq_true]
  constructor
  · intro h
    refine ⟨_, Text.splitChars_ne_nil _ _, fun seg hseg => isSegment_iff.mp (h seg hseg), ?_⟩
    exact (TableReference.joinSegments_splitChars _).symm
  · rintro ⟨segs, hne, hsegs, hs⟩ seg hseg
    rw [hs, TableReference.splitChars_joinSegments hne fun seg hseg => (hsegs seg hseg).dot_not_mem]
      at hseg
    exact isSegment_iff.mpr (hsegs seg hseg)

theorem IsColumn.isAsciiWord_or_dot {cs : List Char} (h : IsColumn cs) {c : Char} (hc : c ∈ cs) :
    Text.isAsciiWord c = true ∨ c = '.' := by
  obtain ⟨segs, -, hsegs, rfl⟩ := h
  rcases TableReference.mem_joinSegments hc with rfl | ⟨seg, hseg, hc⟩
  · exact .inr rfl
  · exact .inl ((hsegs seg hseg).isAsciiWord hc)

/-! ## What is asked for -/

/-- The number that a fallback is: zero if there is none, a number itself, or the number that a
text writes between white space. -/
inductive Supplies : Option Json → Number → Prop where
  | absent : Supplies none (.int 0)
  | null : Supplies (some .null) (.int 0)
  | number (n : Number) : Supplies (some (.num n)) n
  | text {s : String} {n : Number} (h : number? (Text.trim s) = some n) :
      Supplies (some (.str s)) n

/-- The column and the fallback that the arguments of an average give. -/
structure Asks (args : List Json) (name : String) (n : Number) : Prop where
  column : args.head? = some (.str name)
  identifier : IsColumn name.toList
  fallback : Supplies args[1]? n

variable {args : List Json} {name : String} {n : Number}

theorem column_eq_ok_iff :
    column args = .ok name ↔ args.head? = some (.str name) ∧ IsColumn name.toList := by
  rw [← isIdentifier_iff]
  unfold column
  split
  next hnone =>
    refine ⟨nofun, fun ⟨hhead, _⟩ => ?_⟩
    rw [hhead] at hnone
    cases hnone
  next given hgiven =>
    obtain ⟨v, hv, hstring⟩ := Option.bind_eq_some_iff.mp hgiven
    obtain rfl : v = .str given := by
      cases v with
      | str s => rw [Option.some.inj hstring]
      | _ => cases hstring
    rw [hv]
    split
    next hidentifier =>
      constructor
      · intro h
        cases h
        exact ⟨rfl, hidentifier⟩
      · rintro ⟨h, -⟩
        cases h
        rfl
    next hidentifier =>
      refine ⟨nofun, ?_⟩
      rintro ⟨h, hname⟩
      cases h
      exact absurd hname hidentifier

theorem fallback_eq_ok_iff {v : Option Json} : fallback v = .ok n ↔ Supplies v n := by
  constructor
  · intro h
    unfold fallback at h
    split at h
    next =>
      cases h
      exact .absent
    next =>
      cases h
      exact .null
    next =>
      cases h
      exact .number n
    next v _ _ =>
      split at h
      next found hfound =>
        cases h
        obtain ⟨s, hs, hnumber⟩ := Option.bind_eq_some_iff.mp hfound
        cases v with
        | str _ =>
          cases hs
          exact .text hnumber
        | _ => cases hs
      next => cases h
  · intro h
    cases h with
    | absent => rfl
    | null => rfl
    | number => rfl
    | text h => simp only [fallback, Json.string?, Option.bind_some, h]

theorem asks_iff : Asks args name n ↔ column args = .ok name ∧ fallback args[1]? = .ok n := by
  rw [column_eq_ok_iff, fallback_eq_ok_iff]
  constructor
  · rintro ⟨hcolumn, hidentifier, hfallback⟩
    exact ⟨⟨hcolumn, hidentifier⟩, hfallback⟩
  · rintro ⟨⟨hcolumn, hidentifier⟩, hfallback⟩
    exact ⟨hcolumn, hidentifier, hfallback⟩

/-- A text writes no infinite number. -/
theorem isFinite_of_number? {s : String} (h : number? s = some n) : n.IsFinite := by
  unfold number? at h
  split at h
  next =>
    cases h
    trivial
  next =>
    obtain ⟨x, hx, rfl⟩ := Option.map_eq_some_iff.mp h
    exact (Option.filter_eq_some_iff.mp hx).2

/-- A number that is supplied is finite if the value it is read from is. -/
theorem Supplies.isFinite {v : Option Json} (h : Supplies v n)
    (hnumber : ∀ m, v = some (.num m) → m.IsFinite) : n.IsFinite := by
  cases h with
  | absent => trivial
  | null => trivial
  | number => exact hnumber n rfl
  | text h => exact isFinite_of_number? h

/-! ## Texts that stay in their place -/

/-- The quotes, the parentheses and the semicolon. -/
def marks : List Char := ['\'', '"', '\x60', '(', ')', ';']

/-- A text that cannot end the place in SQL that it is put in. -/
structure IsInert (cs : List Char) : Prop where
  blanks : ∀ c ∈ cs, Text.isBlank c = false
  marks : ∀ c ∈ cs, c ∉ marks
  lineComment : ¬ ['-', '-'] <:+: cs
  blockComment : ¬ ['/', '*'] <:+: cs

/-- Letters, digits, underscores, dots and signs. -/
def IsTame (c : Char) : Prop :=
  Text.isAsciiWord c = true ∨ c = '.' ∨ c = '+' ∨ c = '-'

/-- A tame character is no blank. -/
theorem IsTame.isBlank {c : Char} (h : IsTame c) : Text.isBlank c = false := by
  rcases h with h | rfl | rfl | rfl
  · rw [Bool.eq_false_iff]
    intro hblank
    rw [Text.isAsciiWord_of_isBlank hblank] at h
    cases h
  · decide +kernel
  · decide +kernel
  · decide +kernel

theorem IsTame.not_mem_marks {c : Char} (h : IsTame c) : c ∉ marks := by
  intro hmem
  simp only [marks, List.mem_cons, List.not_mem_nil, or_false] at hmem
  unfold IsTame at h
  rcases hmem with rfl | rfl | rfl | rfl | rfl | rfl
  all_goals
    revert h
    decide

/-- Of what tame characters write, only the comment of two signs has to be ruled out. -/
theorem isInert_of_tame {cs : List Char} (h : ∀ c ∈ cs, IsTame c)
    (hsigns : ¬ ['-', '-'] <:+: cs) : IsInert cs where
  blanks c hc := (h c hc).isBlank
  marks c hc := (h c hc).not_mem_marks
  lineComment := hsigns
  blockComment := by
    refine Text.not_infix_of_not_mem fun hmem => ?_
    have hslash := h '/' hmem
    unfold IsTame at hslash
    revert hslash
    decide

theorem IsColumn.isInert {cs : List Char} (h : IsColumn cs) : IsInert cs := by
  refine isInert_of_tame (fun c hc => ?_) (Text.not_infix_of_not_mem fun hmem => ?_)
  · exact (h.isAsciiWord_or_dot hc).imp_right .inl
  · have hsign := h.isAsciiWord_or_dot hmem
    revert hsign
    decide

theorem isInert_of_isNumeral {cs : List Char} (h : IsNumeral cs) : IsInert cs := by
  refine isInert_of_tame (fun c hc => ?_) h.not_infix_signs
  rcases h.isNumeralChar hc with hdigit | rfl | rfl | rfl | rfl
  · exact .inl (by simp [Text.isAsciiWord, Char.isAlphanum, hdigit])
  · exact .inr (.inl rfl)
  · exact .inl (by decide)
  · exact .inr (.inr (.inl rfl))
  · exact .inr (.inr (.inr rfl))

/-! ## The calls -/

/-- **Nothing but a column and a number gets into the SQL of an average.**  If the arguments do not
ask for an average, it is refused and the recorder stays as it is.  Otherwise two calls are added:
the projection of the column that was given, with its fallback, and the executor that reads it.
Both texts in the projection are inert.  A number among the arguments is a finite one, as JSON has
no others. -/
theorem run_cases (args : List Json) (options : Options) (r : Recorder)
    (hnumber : ∀ n, args[1]? = some (.num n) → n.IsFinite) :
    ((¬ ∃ name n, Asks args name n) ∧
      ∃ detail, (run args options).runOn r = (.error (.argument detail), r)) ∨
    ∃ name n, Asks args name n ∧
      (run args options).runOn r =
        (.ok (.value ((r.visible.head?.bind (·.field? "aggregate")).getD .null)),
          { r with
            calls := r.calls ++
              [.mk "selectRaw" [.arg (.raw ⟨"COALESCE(AVG(" ++ name ++ "), " ++ renderNumber n ++
                ") AS aggregate", []⟩)],
                .mk "value" [.arg (.value (.str "aggregate"))]]
            lastOptions := some options }) ∧
      IsNumeral (renderNumber n).toList ∧ IsInert name.toList ∧
      IsInert (renderNumber n).toList := by
  rcases runOn_run args options r with ⟨detail, hrefused⟩ | ⟨name, n, hname, hn⟩
  · refine .inl ⟨?_, detail, hrefused⟩
    rintro ⟨name, n, hasks⟩
    obtain ⟨hname, hn⟩ := asks_iff.mp hasks
    rw [runOn_run_of_ok hname hn] at hrefused
    cases hrefused
  · have hasks := asks_iff.mpr ⟨hname, hn⟩
    have hnumeral := Json.isNumeral_renderNumber (hasks.fallback.isFinite hnumber)
    have hsql : sql name n = "COALESCE(AVG(" ++ name ++ "), " ++ renderNumber n ++
        ") AS aggregate" := by
      rw [sql, String.append_assoc]
      rfl
    have hrun := runOn_run_of_ok hname hn options r
    rw [hsql] at hrun
    exact .inr ⟨name, n, hasks, hrun, hnumeral, hasks.identifier.isInert,
      isInert_of_isNumeral hnumeral⟩

/-- A double between white space is read, and printed as numbers are printed. -/
theorem run_cases_text :
    (∀ n, [Json.str "o.total_2", .str " -1e21\n"][1]? = some (.num n) → n.IsFinite) ∧
      (run [.str "o.total_2", .str " -1e21\n"] {}).runOn
          (.ofRows [.obj [("aggregate", Json.nat 5)]]) =
        (.ok (.value (Json.nat 5)),
          { Recorder.ofRows [.obj [("aggregate", Json.nat 5)]] with
            calls := [.mk "selectRaw"
                [.arg (.raw ⟨"COALESCE(AVG(o.total_2), -1e+21) AS aggregate", []⟩)],
              .mk "value" [.arg (.value (.str "aggregate"))]]
            lastOptions := some {} }) ∧
      IsInert "o.total_2".toList ∧ IsInert "-1e+21".toList := by
  have hnumber : ∀ n, [Json.str "o.total_2", .str " -1e21\n"][1]? = some (.num n) → n.IsFinite :=
    nofun
  obtain ⟨hcolumn, hprinted⟩ :
      (column [.str "o.total_2", .str " -1e21\n"]).toOption = some "o.total_2" ∧
      (fallback (some (.str " -1e21\n"))).toOption.map renderNumber = some "-1e+21" := by
    decide +kernel
  obtain ⟨n, hn, hprinted⟩ := Option.map_eq_some_iff.mp hprinted
  have hcolumn := Checks.eq_ok_of_mem_toOption hcolumn
  have hn := Checks.eq_ok_of_mem_toOption hn
  rcases run_cases _ {} (.ofRows [.obj [("aggregate", Json.nat 5)]]) hnumber with
    ⟨hnone, -⟩ | ⟨name, m, hasks, hrun, -, hname, hinert⟩
  · exact absurd ⟨_, n, asks_iff.mpr ⟨hcolumn, hn⟩⟩ hnone
  · obtain ⟨hname', hm⟩ := asks_iff.mp hasks
    obtain rfl : "o.total_2" = name := Except.ok.inj (hcolumn.symm.trans hname')
    obtain rfl : n = m := Except.ok.inj (hn.symm.trans hm)
    rw [hprinted] at hrun hinert
    exact ⟨hnumber, hrun, hname, hinert⟩

end QueryScript.Average
