import QueryScript.Proofs.Recorder.Executors
import QueryScript.Proofs.Recorder.Invocation

/-!
# Pages

A page is cut from all rows of a recorder.  Its first row is found by counting from the start, as
far as 64 bits can count, and a list of rows is never longer than that.  So the pages of one size
are the rows in pieces (`Recorder.page_eq_getElem`, `flatten_piecesOf`), and what comes after the
last is empty however far away it is (`Recorder.page_eq_nil`): the rows that `paginate` shows page
by page are all rows, each once and in order (`Recorder.paginate_partitions`).

`forPage` gets to the same rows in another way, by setting a window that the rows are later seen
through.  It sets all of the window, so that nothing is left of what was set before
(`Recorder.forPage_selectsPage`).
-/

namespace QueryScript

/-! ## A list in pieces -/

section

variable {α : Type} {xs : List α} {size : Nat}

/-- A list in pieces of one size; the last may be shorter. -/
def piecesOf (size : Nat) (xs : List α) : List (List α) :=
  (List.range ((xs.length + size - 1) / size)).map fun i => (xs.drop (i * size)).take size

theorem length_piecesOf : (piecesOf size xs).length = (xs.length + size - 1) / size := by
  rw [piecesOf, List.length_map, List.length_range]

/-- There is a piece wherever there is something left of the list. -/
theorem lt_length_piecesOf_iff (hsize : 1 ≤ size) {i : Nat} :
    i < (piecesOf size xs).length ↔ i * size < xs.length := by
  rw [length_piecesOf, ← Nat.succ_le_iff, Nat.le_div_iff_mul_le hsize, Nat.succ_mul]
  omega

theorem getElem_piecesOf {i : Nat} (h : i < (piecesOf size xs).length) :
    (piecesOf size xs)[i] = (xs.drop (i * size)).take size := by
  simp [piecesOf]

/-- The first pieces together are a first part of the list. -/
theorem flatten_take_pieces (size count : Nat) (xs : List α) :
    ((List.range count).map fun i => (xs.drop (i * size)).take size).flatten =
      xs.take (count * size) := by
  -- all pieces are cut from the whole list, so the induction is on their number and not on the list
  induction count with
  | zero => rw [Nat.zero_mul, List.take_zero]; rfl
  | succ count ih =>
    rw [List.range_succ, List.map_append, List.flatten_append, ih, Nat.succ_mul, List.take_add]
    simp

/-- The pieces together are the list. -/
theorem flatten_piecesOf (hsize : 1 ≤ size) : (piecesOf size xs).flatten = xs := by
  rw [piecesOf, flatten_take_pieces]
  refine List.take_of_length_le ?_
  have hlast : ¬ (piecesOf size xs).length * size < xs.length :=
    fun hleft => Nat.lt_irrefl _ ((lt_length_piecesOf_iff hsize).mpr hleft)
  rw [length_piecesOf] at hlast
  omega

/-- No piece is empty or too long. -/
theorem length_of_mem_piecesOf (hsize : 1 ≤ size) {piece : List α} (h : piece ∈ piecesOf size xs) :
    1 ≤ piece.length ∧ piece.length ≤ size := by
  obtain ⟨i, hi, rfl⟩ := List.mem_iff_getElem.mp h
  have hleft := (lt_length_piecesOf_iff hsize).mp hi
  rw [getElem_piecesOf, List.length_take, List.length_drop]
  omega

/-- All pieces but the last are full. -/
theorem length_of_mem_dropLast_piecesOf (hsize : 1 ≤ size) {piece : List α}
    (h : piece ∈ (piecesOf size xs).dropLast) : piece.length = size := by
  obtain ⟨i, hi, rfl⟩ := List.mem_iff_getElem.mp h
  rw [List.length_dropLast] at hi
  -- the piece after this one is there, so this one is full
  have hnext : (i + 1) * size < xs.length := (lt_length_piecesOf_iff hsize).mp (by omega)
  rw [Nat.succ_mul] at hnext
  rw [List.getElem_dropLast, getElem_piecesOf, List.length_take, List.length_drop]
  omega

end

/-! ## Pages of a recorder -/

/-- The rows of the page that an answer shows. -/
def Answer.results? (answer : Answer) : Option (List Json) :=
  (answer.toJson.field? "results").bind Json.array?

namespace Recorder

variable {r : Recorder} {page size : Nat}

/-- The offset of a page that begins among the rows is not cut off. -/
theorem page_eq_getElem (hrows : r.rows.length < Word.limit) (hsize : 1 ≤ size) {i : Nat}
    (hi : i < (piecesOf size r.rows).length) : r.page (i + 1) size = (piecesOf size r.rows)[i] := by
  have hleft := (lt_length_piecesOf_iff hsize).mp hi
  have hoffset : pageOffset (i + 1) size = i * size := by
    rw [pageOffset, Nat.add_sub_cancel]
    omega
  rw [Recorder.page, hoffset, getElem_piecesOf]

/-- The offset of a page that begins behind the rows stays behind them when it is cut off. -/
theorem page_eq_nil (hrows : r.rows.length < Word.limit) (hsize : 1 ≤ size)
    (hpage : (piecesOf size r.rows).length < page) : r.page page size = [] := by
  have hbehind : ¬ (page - 1) * size < r.rows.length := by
    rw [← lt_length_piecesOf_iff hsize]
    omega
  rw [Recorder.page, List.drop_eq_nil_of_le, List.take_nil]
  rw [pageOffset]
  omega

/-- Page 0 counts as page 1. -/
theorem paginate_eq (r : Recorder) (page : Nat) (hsize : 1 ≤ size) :
    r.paginate [.value (.nat page), .value (.nat size)] false =
      .ok (.obj [("results", .arr (r.page (max page 1) size)),
        ("pagination", .obj [("page", .nat (max page 1)), ("maxRows", .nat size),
          ("totalRecords", .nat r.rows.length),
          ("totalPages", .nat (piecesOf size r.rows).length)])]) := by
  rw [length_piecesOf]
  have hmax : max size 1 = size := by omega
  show Except.ok (Json.obj [("results", .arr (r.page (max page 1) (max size 1))),
    ("pagination", .obj [("page", .nat (max page 1)), ("maxRows", .nat (max size 1)),
      ("totalRecords", .nat r.rows.length),
      ("totalPages", .nat ((r.rows.length + max size 1 - 1) / max size 1))])]) = _
  rw [hmax]

/-- With its totals or without, a page shows the same rows. -/
theorem map_results?_answer_simple (r : Recorder) (args : List Argument)
    (options options' : Options) :
    (r.answer .simplePaginate args options).map Answer.results? =
      (r.answer .paginate args options').map Answer.results? := by
  simp only [answer, paginate]
  cases naturalArgument args 0 with
  | error e => rfl
  | ok page =>
    cases naturalArgument args 1 with
    | error e => rfl
    | ok size => rfl

/-- A page is answered with these rows, and with the number of all rows and of all pages. -/
def AnswersPage (r : Recorder) (size pages page : Nat) (rows : List Json) : Prop :=
  ∀ options,
    ((Build.execute .paginate [.value (.nat page), .value (.nat size)] options).runOn r).1 =
      .ok (.value (.obj [("results", .arr rows),
        ("pagination", .obj [("page", .nat page), ("maxRows", .nat size),
          ("totalRecords", .nat r.rows.length), ("totalPages", .nat pages)])]))

theorem answersPage_of_page_eq {rows : List Json} (hsize : 1 ≤ size) (hpage : 1 ≤ page)
    (h : r.page page size = rows) :
    r.AnswersPage size (piecesOf size r.rows).length page rows := by
  intro options
  have hmax : max page 1 = page := by omega
  rw [Build.runOn_execute]
  show (r.paginate [.value (.nat page), .value (.nat size)] false >>= fun v =>
    Except.ok (Answer.value v)) = _
  rw [paginate_eq r page hsize, hmax, h]
  rfl

/-- **Pages partition the rows.**  Whatever window is set, the pages of a size, from the first to
the last that is counted, together show the rows, in order and each once; all but the last are full
and the last is not empty, and every page behind it is.  Without the totals the same rows are shown.
The rows are as many as 64 bits can count. -/
theorem paginate_partitions (hrows : r.rows.length < Word.limit) (hsize : 1 ≤ size) :
    ∃ pages : List (List Json),
      pages.flatten = r.rows ∧ pages.length = (r.rows.length + size - 1) / size ∧
        (∀ rows ∈ pages.dropLast, rows.length = size) ∧
        (∀ rows ∈ pages.getLast?, 1 ≤ rows.length ∧ rows.length ≤ size) ∧
        (∀ i (hi : i < pages.length), r.AnswersPage size pages.length (i + 1) pages[i]) ∧
        (∀ page, pages.length < page → r.AnswersPage size pages.length page []) ∧
        ∀ args options,
          ((Build.execute .simplePaginate args options).runOn r).1.map Answer.results? =
            ((Build.execute .paginate args options).runOn r).1.map Answer.results? := by
  refine ⟨piecesOf size r.rows, flatten_piecesOf hsize, length_piecesOf,
    fun rows hmem => length_of_mem_dropLast_piecesOf hsize hmem,
    fun rows hlast => length_of_mem_piecesOf hsize (List.mem_of_getLast? hlast),
    fun i hi => answersPage_of_page_eq hsize (by omega) (page_eq_getElem hrows hsize hi),
    fun page hpage => answersPage_of_page_eq hsize (by omega) (page_eq_nil hrows hsize hpage),
    fun args options => ?_⟩
  rw [Build.runOn_execute, Build.runOn_execute]
  exact r.map_results?_answer_simple args options options

/-- A recorder with three rows of which its window shows one. -/
def threeRows : Recorder :=
  { rows := [.nat 1, .nat 2, .nat 3], limit := some 1, offset := 2 }

/-- Three rows are two pages of two, and the last page that 64 bits can ask for is empty. -/
theorem paginate_partitions_threeRows :
    threeRows.rows.length < Word.limit ∧ 1 ≤ 2 ∧
      ∃ pages : List (List Json), pages.flatten = [.nat 1, .nat 2, .nat 3] ∧ pages.length = 2 ∧
        (∀ rows ∈ pages.dropLast, rows.length = 2) ∧
        (∀ i (hi : i < pages.length), threeRows.AnswersPage 2 2 (i + 1) pages[i]) ∧
        threeRows.AnswersPage 2 2 (Word.limit - 1) [] := by
  have hrows : threeRows.rows.length < Word.limit := by decide
  obtain ⟨pages, hflatten, hlength, hfull, -, hshown, hbehind, -⟩ :=
    paginate_partitions hrows (by decide : 1 ≤ 2)
  have htwo : pages.length = 2 := hlength
  rw [htwo] at hbehind
  refine ⟨hrows, by decide, pages, hflatten, htwo, hfull, fun i hi => ?_, hbehind _ (by decide)⟩
  have hpage := hshown i hi
  rwa [htwo] at hpage

/-! ## A window and a page -/

/-- A recorder without a result of the driver answers with the rows that it shows. -/
theorem answer_get_of_native_eq_none (h : r.native = none) (args : List Argument)
    (options : Options) : r.answer .get args options = .ok (.value (.arr r.visible)) := by
  rw [answer, h]
  cases options.native <;> rfl

/-- The recorder after its window is set to a page. -/
def turnedTo (r : Recorder) (page size : Nat) : Recorder :=
  { r with offset := pageOffset (max page 1) size, limit := some size }

theorem runOn_forPage (r : Recorder) (page size : Nat) :
    (Build.limit "forPage" [.value (.nat page), .value (.nat size)]).runOn r =
      (.ok (), (r.turnedTo page size).record
        (.mk "forPage" [.arg (.value (.nat page)), .arg (.value (.nat size))])) := rfl

theorem visible_turnedTo (r : Recorder) (page size : Nat) :
    (r.turnedTo page size).visible = r.page (max page 1) size := rfl

/-- **A window set to a page shows what the page shows.**  Whatever was called before, `forPage`
followed by `get` and `paginate` answer with the same rows, and with those of page 1 when they are
asked for page 0. -/
theorem forPage_selectsPage (hnative : r.native = none) (earlier : List Invocation) (page : Nat)
    (hsize : 1 ≤ size) (options options' : Options) :
    let s := Invocation.runAll earlier r
    ∃ rows,
      ((do
        Build.limit "forPage" [.value (.nat page), .value (.nat size)]
        Build.execute .get [] options : Build Answer).runOn s).1 = .ok (.value (.arr rows)) ∧
      ((Build.execute .paginate [.value (.nat page), .value (.nat size)] options').runOn s).1.map
        Answer.results? = .ok (some rows) ∧
      rows = r.page (max page 1) size := by
  intro s
  have hrows : s.page (max page 1) size = r.page (max page 1) size := by
    rw [Recorder.page, Recorder.page,
      Invocation.runAll_keeps Recorder.rows (fun _ _ _ _ => rfl) earlier r]
  have hnone : s.native = none := by
    rw [Invocation.runAll_keeps Recorder.native (fun _ _ _ _ => rfl) earlier r, hnative]
  refine ⟨r.page (max page 1) size, ?_, ?_, rfl⟩
  · rw [Build.runOn_bind_of_ok (runOn_forPage s page size), Build.runOn_execute]
    show answer _ .get [] options = _
    rw [answer_get_of_native_eq_none (r := (s.turnedTo page size).record _) hnone]
    show Except.ok (Answer.value (.arr (s.turnedTo page size).visible)) = _
    rw [visible_turnedTo, hrows]
  · rw [Build.runOn_execute]
    show Except.map Answer.results? (s.paginate [.value (.nat page), .value (.nat size)] false >>=
      fun v => Except.ok (Answer.value v)) = _
    rw [paginate_eq s page hsize, hrows]
    rfl

/-- Page 0 of three rows is the first page, though a call before had skipped all rows and another
had failed. -/
theorem forPage_selectsPage_threeRows :
    threeRows.native = none ∧ 1 ≤ 2 ∧
      let s := Invocation.runAll [.limit "skip" [.value (.nat 3)],
        .limit "take" [.value (.bool true)]] threeRows
      s.visible = [] ∧
        ((do
          Build.limit "forPage" [.value (.nat 0), .value (.nat 2)]
          Build.execute .get [] {} : Build Answer).runOn s).1 =
            .ok (.value (.arr [.nat 1, .nat 2])) ∧
        ((Build.execute .paginate [.value (.nat 0), .value (.nat 2)] {}).runOn s).1.map
          Answer.results? = .ok (some [.nat 1, .nat 2]) := by
  obtain ⟨rows, hget, hpaginate, hrows⟩ :=
    forPage_selectsPage (r := threeRows) rfl [.limit "skip" [.value (.nat 3)],
      .limit "take" [.value (.bool true)]] 0 (by decide : 1 ≤ 2) {} {}
  have hfirst : rows = [.nat 1, .nat 2] := hrows.trans rfl
  rw [hfirst] at hget hpaginate
  exact ⟨rfl, by decide, rfl, hget, hpaginate⟩

end Recorder

end QueryScript
