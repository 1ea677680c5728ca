import QueryScript.Json.Printer
import QueryScript.Proofs.Text.Neighbours

/-!
# How numbers are printed

Every JSON number prints as a numeral of the JSON grammar (`isNumeral_renderNumber`): an
optional sign, digits that do not begin with a zero unless they are the zero, and possibly a
fraction and an exponent.  For integers that is what is known of decimal digits.  A double is laid
out from its shortest decimal, and all that matters of this decimal is that its digits are not
zero (`shortest_ne_zero`): then its first digit is none either, wherever the point is put.

So a printed number is made of digits, points, signs and the letter `e`
(`IsNumeral.isNumeralChar`), and two signs never stand side by side, since the second one belongs to
an exponent (`IsNumeral.not_infix_signs`).
-/

namespace QueryScript

/-- An integer, or a double that is an ordinary number: what JSON can write. -/
def Number.IsFinite : Number → Prop
  | .int _ => True
  | .double x => x.isFinite = true

/-! ## The shortest decimal is not zero -/

namespace Binary64

variable {units : Nat}

/-- The gap between doubles is no larger than the double that it is next to. -/
theorem gap_le (hunits : units ≠ 0) : gap units ≤ units :=
  Nat.le_trans (Nat.pow_le_pow_right (by decide) (Nat.sub_le _ _)) (Nat.log2_self_le hunits)

/-- Zero reads back as no other double. -/
theorem digits_ne_zero_of_readsBack (hunits : units ≠ 0) {d : Decimal}
    (h : readsBack units d = true) : d.digits ≠ 0 := by
  intro hzero
  have hgap := gap_le hunits
  have hscale : 0 < tenDown d.exponent := Nat.pow_pos (by decide)
  have hlow : 0 < 4 * units - (if units = Nat.pow 2 52 * gap units ∧ 1 < gap units then gap units
      else 2 * gap units) := by
    split <;> omega
  have hpos := Nat.mul_pos hlow hscale
  unfold readsBack at h
  dsimp only at h
  rw [hzero, Nat.mul_zero, Nat.zero_mul, Nat.zero_mul] at h
  split at h
  · rw [Bool.and_eq_true, decide_eq_true_eq] at h
    omega
  · rw [Bool.and_eq_true, decide_eq_true_eq] at h
    omega

/-- A decimal on a grid that reads back as a double other than zero is not zero. -/
theorem digits_ne_zero_of_onGrid? (hunits : units ≠ 0) {k : Int} {d : Decimal}
    (h : onGrid? units k = some d) : d.digits ≠ 0 := by
  unfold onGrid? at h
  dsimp only at h
  split at h
  next => cases h
  next hhere _ =>
    cases h
    exact digits_ne_zero_of_readsBack hunits hhere
  next =>
    cases h
    exact Nat.succ_ne_zero _
  next hhere _ =>
    have hne := digits_ne_zero_of_readsBack hunits hhere
    split at h
    · cases h
      exact hne
    · split at h
      · cases h
        exact Nat.succ_ne_zero _
      · cases h
        intro hsum
        exact hne (Nat.eq_zero_of_add_eq_zero_right hsum)

theorem digits_stripZeros_ne_zero {fuel : Nat} {d : Decimal} (h : d.digits ≠ 0) :
    (stripZeros fuel d).digits ≠ 0 := by
  induction fuel generalizing d with
  | zero => exact h
  | succ fuel ih =>
    rw [stripZeros]
    split
    next hzeros =>
      refine ih ?_
      dsimp only
      omega
    next => exact h

/-- The shortest decimal of a double other than zero is not zero. -/
theorem shortest_ne_zero (hunits : units ≠ 0) : (shortest units).digits ≠ 0 := by
  unfold shortest
  dsimp only
  split
  next d hd =>
    obtain ⟨n, -, hgrid⟩ := List.exists_of_findSome?_eq_some hd
    exact digits_stripZeros_ne_zero (digits_ne_zero_of_onGrid? hunits hgrid)
  next => exact hunits

end Binary64

namespace Json

/-! ## Numerals -/

/-- A non-empty run of digits. -/
def IsDigits (ds : List Char) : Prop :=
  ds ≠ [] ∧ ∀ c ∈ ds, c.isDigit = true

/-- Digits that do not begin with a zero, unless they are the zero. -/
structure IsWhole (ds : List Char) : Prop where
  digits : IsDigits ds
  leading : ds.head? = some '0' → ds = ['0']

/-- Nothing, or a point with digits after it. -/
inductive IsFraction : List Char → Prop where
  | absent : IsFraction []
  | digits {ds : List Char} (h : IsDigits ds) : IsFraction ('.' :: ds)

/-- Nothing, or the letter `e` with a sign and digits after it. -/
inductive IsExponent : List Char → Prop where
  | absent : IsExponent []
  | digits {sign : Char} {ds : List Char} (hsign : sign = '+' ∨ sign = '-') (h : IsDigits ds) :
      IsExponent ('e' :: sign :: ds)

/-- A numeral without a sign. -/
inductive IsMagnitude : List Char → Prop where
  | mk {whole fraction exponent : List Char} (hwhole : IsWhole whole)
      (hfraction : IsFraction fraction) (hexponent : IsExponent exponent) :
      IsMagnitude (whole ++ (fraction ++ exponent))

/-- A numeral of JSON. -/
inductive IsNumeral : List Char → Prop where
  | positive {cs : List Char} (h : IsMagnitude cs) : IsNumeral cs
  | negative {cs : List Char} (h : IsMagnitude cs) : IsNumeral ('-' :: cs)

/-! ## Digits -/

theorem isDigits_toDigits (n : Nat) : IsDigits (Nat.toDigits 10 n) :=
  ⟨Nat.toDigits_ne_nil, fun _ => Nat.isDigit_of_mem_toDigits (by decide) (by decide)⟩

/-- The digits of a number other than zero do not begin with a zero. -/
theorem head?_toDigits_ne_zero {n : Nat} (hn : n ≠ 0) : (Nat.toDigits 10 n).head? ≠ some '0' := by
  induction n using Nat.strongRecOn with
  | ind n ih =>
    rw [Nat.toDigits_eq_if (by decide)]
    split
    next hlt =>
      intro h
      exact hn (Nat.digitChar_eq_zero.mp (Option.some.inj h))
    next hle =>
      rw [List.head?_append, List.head?_eq_some_head Nat.toDigits_ne_nil, Option.some_or,
        ← List.head?_eq_some_head Nat.toDigits_ne_nil]
      exact ih (n / 10) (by omega) (by omega)

/-- A natural number is printed without leading zeros. -/
theorem isWhole_toDigits (n : Nat) : IsWhole (Nat.toDigits 10 n) := by
  refine ⟨isDigits_toDigits n, fun h => ?_⟩
  by_cases hn : n = 0
  · rw [hn, Nat.toDigits_zero]
  · exact absurd h (head?_toDigits_ne_zero hn)

/-- An integer is printed as a numeral. -/
theorem isNumeral_renderInt (i : Int) : IsNumeral (renderInt i).toList := by
  have hdigits := IsMagnitude.mk (isWhole_toDigits i.natAbs) .absent .absent
  rw [List.append_nil, List.append_nil] at hdigits
  rw [renderInt, String.toList_ofList]
  split
  · exact .negative hdigits
  · exact .positive hdigits

/-! ## Doubles -/

theorem isDigits_zero : IsDigits ['0'] := by
  refine ⟨List.cons_ne_nil _ _, fun c hc => ?_⟩
  rw [List.mem_singleton.mp hc]
  rfl

theorem isWhole_zero : IsWhole ['0'] :=
  ⟨isDigits_zero, fun _ => rfl⟩

theorem isDigit_of_mem_zeros {k : Nat} {c : Char} (h : c ∈ List.replicate k '0') :
    c.isDigit = true := by
  rw [(List.mem_replicate.mp h).2]
  rfl

namespace IsDigits

variable {ds es : List Char}

theorem zeros_append (h : IsDigits ds) (k : Nat) : IsDigits (List.replicate k '0' ++ ds) := by
  refine ⟨List.append_ne_nil_of_right_ne_nil _ h.1, fun c hc => ?_⟩
  rcases List.mem_append.mp hc with hc | hc
  · exact isDigit_of_mem_zeros hc
  · exact h.2 c hc

theorem append_zeros (h : IsDigits ds) (k : Nat) : IsDigits (ds ++ List.replicate k '0') := by
  refine ⟨List.append_ne_nil_of_left_ne_nil h.1 _, fun c hc => ?_⟩
  rcases List.mem_append.mp hc with hc | hc
  · exact h.2 c hc
  · exact isDigit_of_mem_zeros hc

/-- The beginning of a run of digits is one, if it is not empty. -/
theorem take (h : IsDigits ds) {n : Nat} (hn : n ≠ 0) : IsDigits (ds.take n) := by
  refine ⟨fun hnil => ?_, fun c hc => h.2 c (List.mem_of_mem_take hc)⟩
  rcases List.take_eq_nil_iff.mp hnil with hzero | hnil
  · exact hn hzero
  · exact h.1 hnil

/-- What is left of a run of digits is one, if anything is. -/
theorem drop (h : IsDigits ds) {n : Nat} (hne : ds.drop n ≠ []) : IsDigits (ds.drop n) :=
  ⟨hne, fun c hc => h.2 c (List.mem_of_mem_drop hc)⟩

/-- Digits of which the first is not a zero may stand before a point. -/
theorem isWhole (h : IsDigits ds) (hlead : ds.head? ≠ some '0') : IsWhole ds :=
  ⟨h, fun hzero => absurd hzero hlead⟩

end IsDigits

/-- Wherever the point is put, digits that do not begin with a zero make a numeral. -/
theorem isMagnitude_withPoint {ds : List Char} (h : IsDigits ds) (hlead : ds.head? ≠ some '0')
    (n : Int) : IsMagnitude (DecimalLayout.withPoint ds n) := by
  unfold DecimalLayout.withPoint
  split
  next =>
    have hnumeral := IsMagnitude.mk isWhole_zero (.digits (h.zeros_append (-n).toNat)) .absent
    rw [List.append_nil] at hnumeral
    exact hnumeral
  next hn =>
    have hpos : n.toNat ≠ 0 := by omega
    have hwhole := (h.take hpos).append_zeros (n.toNat - ds.length)
    have hfraction : IsDigits (if ds.drop n.toNat = [] then ['0'] else ds.drop n.toNat) := by
      split
      next => exact isDigits_zero
      next hne => exact h.drop hne
    have hnumeral := IsMagnitude.mk (hwhole.isWhole ?_) (.digits hfraction) .absent
    · rw [List.append_nil] at hnumeral
      exact hnumeral
    · rw [List.head?_append, List.head?_take, if_neg hpos, List.head?_eq_some_head h.1,
        Option.some_or, ← List.head?_eq_some_head h.1]
      exact hlead

/-- In each layout a decimal is printed as the magnitude of a number. -/
theorem isMagnitude_render {d : Decimal} (hd : d.digits ≠ 0) (layout : DecimalLayout) :
    IsMagnitude (layout.render d) := by
  have hdigits := isDigits_toDigits d.digits
  have hlead := head?_toDigits_ne_zero hd
  unfold DecimalLayout.render
  dsimp only
  split
  next => exact isMagnitude_withPoint hdigits hlead _
  next =>
    rw [List.append_assoc]
    refine .mk ((hdigits.take Nat.one_ne_zero).isWhole ?_) ?_ (.digits ?_ (isDigits_toDigits _))
    · rw [List.head?_take, if_neg Nat.one_ne_zero]
      exact hlead
    · split
      next hlong =>
        refine .digits (hdigits.drop ?_)
        rw [Ne, List.drop_eq_nil_iff]
        omega
      next => exact .absent
    · split
      next => exact .inr rfl
      next => exact .inl rfl

/-- **What is printed for a number is a numeral.** -/
theorem isNumeral_renderNumber {n : Number} (hn : n.IsFinite) :
    IsNumeral (renderNumber n).toList := by
  cases n with
  | int i => exact isNumeral_renderInt i
  | double x =>
    cases x with
    | nan => cases hn
    | infinite negative => cases hn
    | finite negative units =>
      have hbody : IsMagnitude (if units = 0 then ['0', '.', '0']
          else doubleLayout.render (Binary64.shortest units)) := by
        split
        next => exact .mk isWhole_zero (.digits isDigits_zero) .absent
        next hunits => exact isMagnitude_render (Binary64.shortest_ne_zero hunits) _
      rw [renderNumber, renderDouble, String.toList_ofList]
      split
      next => exact .negative hbody
      next => exact .positive hbody

/-! ## What a numeral is written with -/

/-- The characters of numerals. -/
def IsNumeralChar (c : Char) : Prop :=
  c.isDigit = true ∨ c = '.' ∨ c = 'e' ∨ c = '+' ∨ c = '-'

variable {cs : List Char}

theorem IsFraction.isNumeralChar (h : IsFraction cs) {c : Char} (hc : c ∈ cs) :
    IsNumeralChar c := by
  cases h with
  | absent => cases hc
  | digits h =>
    rcases List.mem_cons.mp hc with rfl | hc
    · exact .inr (.inl rfl)
    · exact .inl (h.2 c hc)

theorem IsExponent.isNumeralChar (h : IsExponent cs) {c : Char} (hc : c ∈ cs) :
    IsNumeralChar c := by
  cases h with
  | absent => cases hc
  | digits hsign h =>
    rcases List.mem_cons.mp hc with rfl | hc
    · exact .inr (.inr (.inl rfl))
    · rcases List.mem_cons.mp hc with rfl | hc
      · exact .inr (.inr (.inr hsign))
      · exact .inl (h.2 c hc)

theorem IsMagnitude.isNumeralChar (h : IsMagnitude cs) {c : Char} (hc : c ∈ cs) :
    IsNumeralChar c := by
  cases h with
  | mk hwhole hfraction hexponent =>
    rcases List.mem_append.mp hc with hc | hc
    · exact .inl (hwhole.digits.2 c hc)
    · rcases List.mem_append.mp hc with hc | hc
      · exact hfraction.isNumeralChar hc
      · exact hexponent.isNumeralChar hc

/-- A numeral is written with digits, signs, a point and the mark of an exponent. -/
theorem IsNumeral.isNumeralChar (h : IsNumeral cs) {c : Char} (hc : c ∈ cs) :
    IsNumeralChar c := by
  cases h with
  | positive h => exact h.isNumeralChar hc
  | negative h =>
    rcases List.mem_cons.mp hc with rfl | hc
    · exact .inr (.inr (.inr (.inr rfl)))
    · exact h.isNumeralChar hc

theorem IsDigits.sign_not_mem (h : IsDigits cs) : '-' ∉ cs :=
  fun hmem => absurd (h.2 '-' hmem) (by decide)

theorem IsFraction.sign_not_mem (h : IsFraction cs) : '-' ∉ cs := by
  cases h with
  | absent => exact List.not_mem_nil
  | digits h =>
    intro hmem
    rcases List.mem_cons.mp hmem with hpoint | hmem
    · revert hpoint
      decide
    · exact h.sign_not_mem hmem

/-- No two minus signs stand next to each other in an exponent. -/
theorem IsExponent.not_infix_signs (h : IsExponent cs) : ¬ ['-', '-'] <:+: cs := by
  cases h with
  | absent => exact Text.not_infix_of_not_mem List.not_mem_nil
  | digits hsign h =>
    -- the letter comes before the sign, and a digit after it
    have hletter : '-' ∉ ['e'] := by decide
    refine Text.not_infix_append hletter (Text.not_infix_cons ?_ ?_)
    · exact fun hhead => h.sign_not_mem (List.mem_of_mem_head? hhead)
    · exact Text.not_infix_of_not_mem h.sign_not_mem

/-- Nor in the magnitude of a number. -/
theorem IsMagnitude.not_infix_signs (h : IsMagnitude cs) : ¬ ['-', '-'] <:+: cs := by
  cases h with
  | mk hwhole hfraction hexponent =>
    exact Text.not_infix_append hwhole.digits.sign_not_mem
      (Text.not_infix_append hfraction.sign_not_mem hexponent.not_infix_signs)

/-- A magnitude has no sign in front. -/
theorem IsMagnitude.head?_ne_sign (h : IsMagnitude cs) : cs.head? ≠ some '-' := by
  cases h with
  | mk hwhole _ _ =>
    rw [List.head?_append, List.head?_eq_some_head hwhole.digits.1, Option.some_or,
      ← List.head?_eq_some_head hwhole.digits.1]
    exact fun hhead => hwhole.digits.sign_not_mem (List.mem_of_mem_head? hhead)

/-- **No two signs stand side by side in a numeral.** -/
theorem IsNumeral.not_infix_signs (h : IsNumeral cs) : ¬ ['-', '-'] <:+: cs := by
  cases h with
  | positive h => exact h.not_infix_signs
  | negative h => exact Text.not_infix_cons h.head?_ne_sign h.not_infix_signs

end Json

end QueryScript
