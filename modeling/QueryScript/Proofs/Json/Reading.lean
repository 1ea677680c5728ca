import QueryScript.Json.Printer
import QueryScript.Json.Reader

/-!
# Texts read back

A printed text is one token: whatever characters it has, escaping them keeps the reader inside the
text until its closing quote (`Scan.run_quote`).  So reading can be followed one token after the
other (`readFrom_cons`, `readFrom_quote`).

A value made of texts and lists is then read where a value is expected, by induction on how it is
made: the brackets and the commas of a list take the reader from one item to the next
(`readsBack_of_isTextual`).  So what is printed for such a value reads back as this value, if its
lists are nested no deeper than the reader goes (`parse?_compact`).
-/

namespace QueryScript.Json

/-! ## One token -/

namespace Scan

theorem run_cons {s next : Scan} {c : Char} {tokens : List Token}
    (h : s.step c = some (next, tokens)) (cs : List Char) :
    run s (c :: cs) = (run next cs).map (tokens ++ ·) := by
  rw [run, h]

/-- A character that completes no token. -/
theorem run_silent {s : Scan} {c : Char} (next : Scan) (h : s.step c = some (next, []))
    (cs : List Char) : run s (c :: cs) = run next cs := by
  rw [run_cons h]
  exact Option.map_id'

theorem run_escaped {taken rest : List Char} {c : Char} (e : Char) (hu : e ≠ 'u')
    (h : escaped? e = some c) :
    run (.text taken) ('\\' :: e :: rest) = run (.text (c :: taken)) rest := by
  have hstep : step (.escape taken) e = some (.text (c :: taken), []) := by
    rw [step, if_neg hu, h]
    rfl
  rw [run_silent (.escape taken) rfl, run_silent _ hstep]

theorem hexValue?_hexDigit : ∀ n < 16, Text.hexValue? (hexDigit n) = some n := by
  decide

theorem afterHex_of_lt {taken : List Char} {value : Nat} (h : value < 0xd800) :
    afterHex taken none value = some (.text (Char.ofNat value :: taken)) := by
  simp [afterHex, show ¬ 0xd800 ≤ value by omega, show ¬ 0xdc00 ≤ value by omega]

/-- A control character stands as four hexadecimal digits. -/
theorem run_control {taken rest : List Char} {c : Char} (h : c.toNat < 32) :
    run (.text taken)
        ('\\' :: 'u' :: '0' :: '0' :: hexDigit (c.toNat / 16) :: hexDigit (c.toNat % 16) :: rest) =
      run (.text (c :: taken)) rest := by
  have hvalue : 16 * (c.toNat / 16) + c.toNat % 16 = c.toNat := by omega
  have hhigh : step (.hex taken none 2 0) (hexDigit (c.toNat / 16)) =
      some (.hex taken none 1 (c.toNat / 16), []) := by
    rw [step, hexValue?_hexDigit _ (by omega)]
    dsimp only
    rw [if_pos (by decide), Nat.mul_zero, Nat.zero_add]
  have hlow : step (.hex taken none 1 (c.toNat / 16)) (hexDigit (c.toNat % 16)) =
      some (.text (c :: taken), []) := by
    rw [step, hexValue?_hexDigit _ (by omega)]
    dsimp only
    rw [if_neg (by decide), hvalue, afterHex_of_lt (by omega), Char.ofNat_toNat]
    rfl
  rw [run_silent (.escape taken) rfl, run_silent (.hex taken none 4 0) rfl,
    run_silent (.hex taken none 3 0) rfl, run_silent (.hex taken none 2 0) rfl,
    run_silent _ hhigh, run_silent _ hlow]

/-- However a character is escaped, the reader takes it into the text. -/
theorem run_escapeChar (taken : List Char) (c : Char) (rest : List Char) :
    run (.text taken) (escapeChar c ++ rest) = run (.text (c :: taken)) rest := by
  unfold escapeChar
  split
  next hc =>
    subst hc
    exact run_escaped '"' (by decide) rfl
  split
  next hc =>
    subst hc
    exact run_escaped '\\' (by decide) rfl
  split
  next hc =>
    subst hc
    exact run_escaped 'n' (by decide) rfl
  split
  next hc =>
    subst hc
    exact run_escaped 'r' (by decide) rfl
  split
  next hc =>
    subst hc
    exact run_escaped 't' (by decide) rfl
  split
  next hc =>
    subst hc
    exact run_escaped 'b' (by decide) rfl
  split
  next hc =>
    subst hc
    exact run_escaped 'f' (by decide) rfl
  split
  next hcontrol => exact run_control hcontrol
  next hquote hslash _ _ _ _ _ hcontrol =>
    have hplain : step (.text taken) c = some (.text (c :: taken), []) := by
      rw [step, if_neg hquote, if_neg hslash, if_neg hcontrol]
    rw [List.singleton_append, run_silent _ hplain]

theorem run_escapeChars (cs taken rest : List Char) :
    run (.text taken) (cs.flatMap escapeChar ++ rest) = run (.text (cs.reverse ++ taken)) rest := by
  induction cs generalizing taken with
  | nil => rfl
  | cons c cs ih =>
    rw [List.flatMap_cons, List.append_assoc, run_escapeChar, ih, List.reverse_cons,
      List.append_assoc]
    rfl

/-- **A printed text is one token.** -/
theorem run_quote (s : String) (rest : List Char) :
    run .idle ((quote s).toList ++ rest) = (run .idle rest).map (.scalar (.str s) :: ·) := by
  have hclose : step (.text s.toList.reverse) '"' = some (.idle, [.scalar (.str s)]) := by
    rw [step, if_pos rfl, List.reverse_reverse, String.ofList_toList]
  rw [quote, String.toList_ofList, List.cons_append, run_silent (.text []) rfl,
    List.append_assoc, run_escapeChars, List.append_nil, List.singleton_append, run_cons hclose]
  rfl

end Scan

/-! ## One token after the other -/

/-- What the reader finds when it goes on from a state with the rest of a text. -/
def readFrom (state : State) (cs : List Char) : Option Json :=
  (Scan.run .idle cs).bind state.finish

variable {state next : State} {stack : List Frame}

theorem readFrom_cons {c : Char} {t : Token} (hc : Scan.start c = some (.idle, [t]))
    (ht : state.feed t = some next) (cs : List Char) :
    readFrom state (c :: cs) = readFrom next cs := by
  have hstep : Scan.step .idle c = some (.idle, [t]) := hc
  rw [readFrom, readFrom, Scan.run_cons hstep, Option.bind_map]
  congr 1
  funext tokens
  show state.finish (t :: tokens) = _
  rw [State.finish, ht]

theorem readFrom_quote {s : String} (ht : state.feed (.scalar (.str s)) = some next)
    (cs : List Char) : readFrom state ((quote s).toList ++ cs) = readFrom next cs := by
  rw [readFrom, readFrom, Scan.run_quote, Option.bind_map]
  congr 1
  funext tokens
  show state.finish (.scalar (.str s) :: tokens) = _
  rw [State.finish, ht]

/-- The state waits for a value within these containers. -/
def Expects (state : State) (stack : List Frame) : Prop :=
  ∀ t, t ≠ .closeArray → state.feed t = State.beginValue stack t

theorem expects_value (stack : List Frame) : Expects (.value stack) stack :=
  fun _ _ => rfl

/-- The first item of an array is a value within the empty array. -/
theorem expects_firstItem (stack : List Frame) : Expects (.firstItem stack) (.array [] :: stack) := by
  intro t ht
  cases t with
  | closeArray => exact absurd rfl ht
  | _ => rfl

/-! ## Texts and lists -/

/-- Texts, and lists of such values nested at most so deep. -/
inductive IsTextual : Nat → Json → Prop where
  | str {depth : Nat} (s : String) : IsTextual depth (.str s)
  | arr {depth : Nat} {xs : List Json} (h : ∀ x ∈ xs, IsTextual depth x) :
      IsTextual (depth + 1) (.arr xs)

/-- Wherever the value is expected and there is room for its nesting, the reader takes its text for
the value. -/
def ReadsBack (depth : Nat) (v : Json) : Prop :=
  ∀ state stack, Expects state stack → stack.length + depth ≤ State.maxDepth →
    ∀ cs, readFrom state (v.compact.toList ++ cs) = readFrom (State.deliver v stack) cs

/-- Items are read one after the other up to the end of their array. -/
theorem readFrom_compactItems {depth : Nat} {x : Json} {xs acc : List Json}
    (hitems : ∀ y ∈ x :: xs, ReadsBack depth y) (hstate : Expects state (.array acc :: stack))
    (hstack : stack.length + 1 + depth ≤ State.maxDepth) (cs : List Char) :
    readFrom state ((compactItems (x :: xs)).toList ++ ']' :: cs) =
      readFrom (State.deliver (.arr (acc.reverse ++ x :: xs)) stack) cs := by
  have hx := hitems x List.mem_cons_self state (.array acc :: stack) hstate hstack
  induction xs generalizing state x acc with
  | nil =>
    have hdone : acc.reverse ++ [x] = (x :: acc).reverse := by rw [List.reverse_cons]
    rw [compactItems, hx, hdone]
    exact readFrom_cons rfl rfl cs
  | cons y ys ih =>
    have hrest : ∀ z ∈ y :: ys, ReadsBack depth z := fun z hz =>
      hitems z (List.mem_cons_of_mem x hz)
    have hnext := expects_value (.array (x :: acc) :: stack)
    have hdone : acc.reverse ++ x :: y :: ys = (x :: acc).reverse ++ y :: ys := by
      rw [List.reverse_cons, List.append_assoc]
      rfl
    rw [compactItems, String.toList_append, String.toList_append, List.append_assoc,
      List.append_assoc, hx, hdone,
      ← ih hrest hnext (hrest y List.mem_cons_self _ _ hnext hstack)]
    · exact readFrom_cons rfl rfl _
    · exact nofun

/-- An array is printed between brackets. -/
theorem toList_compact_arr (xs : List Json) :
    (Json.arr xs).compact.toList = '[' :: ((compactItems xs).toList ++ [']']) := by
  rw [compact, String.toList_append, String.toList_append, List.append_assoc]
  rfl

/-- A value made of texts and lists is read wherever a value is expected. -/
theorem readsBack_of_isTextual {depth : Nat} {v : Json} (h : IsTextual depth v) :
    ReadsBack depth v := by
  induction h with
  | str s =>
    intro state stack hstate _ cs
    exact readFrom_quote (hstate _ nofun) cs
  | @arr depth xs _ ih =>
    intro state stack hstate hstack cs
    have hopen : state.feed .openArray = some (.firstItem stack) := by
      rw [hstate .openArray nofun, State.beginValue, if_pos (by omega)]
    rw [toList_compact_arr, List.cons_append, List.append_assoc, List.singleton_append,
      readFrom_cons rfl hopen]
    cases xs with
    | nil => exact readFrom_cons rfl rfl cs
    | cons x xs => exact readFrom_compactItems ih (expects_firstItem stack) (by omega) cs

/-- **What is printed for a value made of texts and lists reads back as the value.** -/
theorem parse?_compact {v : Json} (h : IsTextual State.maxDepth v) : parse? v.compact = some v := by
  have hread := readsBack_of_isTextual h (.value []) [] (expects_value []) (Nat.le_refl _) []
  rw [List.append_nil] at hread
  exact hread

end QueryScript.Json
