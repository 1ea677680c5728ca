import QueryScript.Proofs.Engine.RowCap
import QueryScript.Proofs.Result.Native

/-!
# The driver's own result and the rows

The format that a caller wants decides what the recorder is asked for: a table is made from the
driver's own result, everything else from the rows.  A table loses nothing, because its rows are
those of the result it was made from (`Tabular.toRows_ofNative`).  But the recorder hands out its
own result as it is, while of the rows it shows the visible ones.

So one definition, asked for in both ways, gives the same rows exactly if its window shows all of
them (`Recorder.visible_eq_rows_iff`): there are none, or nothing is skipped and they are no more
than the limit, be it the limit of the definition or the cap of the settings
(`execute_sameRows_iff`).
-/

namespace QueryScript

namespace Recorder

variable {r : Recorder}

/-- A recorder shows all of its rows exactly if it has none, or skips none and has no more than
its limit. -/
theorem visible_eq_rows_iff :
    r.visible = r.rows ↔
      r.rows = [] ∨ (r.offset = 0 ∧ ∀ n, r.limit = some n → r.rows.length ≤ n) := by
  constructor
  · intro h
    have hlength := congrArg List.length h
    by_cases hempty : r.rows = []
    · exact .inl hempty
    · have hpos := List.length_pos_iff.mpr hempty
      cases hlimit : r.limit with
      | none =>
        rw [length_visible hlimit] at hlength
        exact .inr ⟨by omega, fun n hn => by cases hn⟩
      | some n =>
        simp only [visible, hlimit, List.length_take, List.length_drop] at hlength
        refine .inr ⟨by omega, fun m hm => ?_⟩
        obtain rfl := Option.some.inj hm
        omega
  · intro h
    rcases h with hempty | ⟨hoffset, hfits⟩
    · unfold visible
      split <;> simp [hempty]
    · cases hlimit : r.limit with
      | none => simp [visible, hlimit, hoffset]
      | some n =>
        simp only [visible, hlimit, hoffset, List.drop_zero]
        exact List.take_of_length_le (hfits n hlimit)

@[simp] theorem native_limitedTo (r : Recorder) (cap : Option Nat) :
    (r.limitedTo cap).native = r.native := by
  cases cap <;> rfl

@[simp] theorem rows_limitedTo (r : Recorder) (cap : Option Nat) :
    (r.limitedTo cap).rows = r.rows := by
  cases cap <;> rfl

@[simp] theorem offset_limitedTo (r : Recorder) (cap : Option Nat) :
    (r.limitedTo cap).offset = r.offset := by
  cases cap <;> rfl

end Recorder

namespace Engine

variable {engine : Engine} {value : Json} {caller caller' : CallerOptions}
  {definition : Definition} {request : Request} {set : NativeSet} {s s' : Recorder}

/-- Asked for a table, a recorder gives the whole of the driver's own result. -/
theorem eq_table_of_conclude {isCapped : Bool} {built : Recorder} {answer : Json}
    (hget : request.executor = .get)
    (hwants : (engine.formatFor request caller).wantsNative = true)
    (hnative : built.native = some set)
    (h : (engine.conclude request caller isCapped).runOn built = (.ok answer, s)) :
    answer = (Tabular.ofNative set).toJson := by
  obtain ⟨args, given, -, hgiven, -, hshape⟩ := exists_answer_of_conclude hget h
  have hwanted : (engine.optionsFor request caller).native = true := by
    rw [native_optionsFor hget, hwants]
  rw [Recorder.answer_get_of_wanted hwanted (by rw [Recorder.native_limitedTo, hnative])] at hgiven
  rw [← Except.ok.inj hgiven, Format.shapeAnswer, if_pos hwants] at hshape
  exact (Except.ok.inj hshape).symm

/-- The calls that two askings of one query make do not depend on the format. -/
theorem calls_eq_of_conclude {isCapped : Bool} {built : Recorder} {answer answer' : Json}
    (hget : request.executor = .get)
    (h : (engine.conclude request caller isCapped).runOn built = (.ok answer, s))
    (h' : (engine.conclude request caller' isCapped).runOn built = (.ok answer', s')) :
    s'.calls = s.calls := by
  obtain ⟨args, given, hargs, -, rfl, -⟩ := exists_answer_of_conclude hget h
  obtain ⟨args', given', hargs', -, rfl, -⟩ := exists_answer_of_conclude hget h'
  obtain rfl := Except.ok.inj (hargs.symm.trans hargs')
  rfl

/-- **A table and a list of rows hold the same rows exactly if the window shows all of them.**
On a recorder loaded with the driver's own result, one definition that asks for its rows makes the
same calls in both formats; the table has all rows of the result, and the list has the same ones
if there are none, or the query skips none and they are no more than its limit, which is the cap
of the settings where the query does not say that it is capped. -/
theorem execute_sameRows_iff {table rows : Json} (hparams : caller'.params = caller.params)
    (hread : Definition.ofJson value = .ok definition)
    (hasks : Request.ofDefinition definition caller.params = .ok request)
    (hget : request.executor = .get)
    (hwants : (engine.formatFor request caller).wantsNative = true)
    (hformat : engine.formatFor request caller' = .array)
    (htable : (engine.execute value caller).runOn (Recorder.fresh.withNative set) =
      (.ok table, s))
    (hrows : (engine.execute value caller').runOn (Recorder.fresh.withNative set) =
      (.ok rows, s')) :
    ∃ isCapped built,
      (engine.build value caller.params).runOn (Recorder.fresh.withNative set) =
        (.ok (), built) ∧
      (isCapped = true ↔ ∃ c ∈ built.calls, c.Caps) ∧
      s'.calls = s.calls ∧
      table = (Tabular.ofNative set).toJson ∧
      (rows = .arr (Tabular.ofNative set).toRows ↔
        set.rows = [] ∨ (built.offset = 0 ∧
          ∀ n, (built.limitedTo (engine.cap? request isCapped)).limit = some n →
            set.rows.length ≤ n)) := by
  obtain ⟨isCapped, built, hbuilt, htable⟩ := exists_built_of_execute hread hasks htable
  obtain ⟨isCapped', built', hbuilt', hrows⟩ :=
    exists_built_of_execute hread (by rw [hparams]; exact hasks) hrows
  -- the callers pass the same parameters, so that both build the same query
  rw [hparams, hbuilt] at hbuilt'
  obtain ⟨hcapped, rfl⟩ := Prod.mk.inj hbuilt'
  obtain rfl := Except.ok.inj hcapped
  obtain ⟨added, hadded, hcaps⟩ := exists_added_of_buildDefinition hbuilt
  obtain ⟨calls, limit, offset, hend⟩ :=
    engine.asksNothing_buildDefinition definition caller.params (Recorder.fresh.withNative set)
  rw [hbuilt] at hend
  have hset : built.native = some set := by rw [show built = _ from hend]; rfl
  have hloaded : built.rows = set.toRows := by rw [show built = _ from hend]; rfl
  refine ⟨isCapped, built, runOn_build_of_ok hread hbuilt, ?_,
    calls_eq_of_conclude hget htable hrows, eq_table_of_conclude hget hwants hset htable, ?_⟩
  · rw [show built.calls = added from hadded]
    exact hcaps
  · have hall := Recorder.visible_eq_rows_iff (r := built.limitedTo (engine.cap? request isCapped))
    rw [Recorder.rows_limitedTo, Recorder.offset_limitedTo, hloaded] at hall
    rw [eq_visible_of_conclude hget hformat hrows, Tabular.toRows_ofNative, Json.arr.injEq, hall]
    simp [NativeSet.toRows]

/-- Two users in the form of a driver. -/
def twoUsers : NativeSet :=
  ⟨[⟨"id", "INT4"⟩], [[.nat 1], [.nat 2]]⟩

/-- A caller who wants a table. -/
def wantsTable : CallerOptions :=
  { returnFormat := some .tabular }

/-- Users, but no more than so many. -/
def usersUpTo (n : Nat) : Json :=
  .arr [.obj [("from", .str "users")], .obj [("limit", .nat n)]]

theorem exists_runs_usersUpTo_two :
    ∃ engine definition s s' rows built, ofSettings .usersOnly = .ok engine ∧
      engine.defaults.maxRows = none ∧ Definition.ofJson (usersUpTo 2) = .ok definition ∧
      Request.ofDefinition definition .empty = .ok Request.rows ∧
      engine.formatFor Request.rows wantsTable = .tabular ∧
      engine.formatFor Request.rows {} = .array ∧
      (engine.execute (usersUpTo 2) wantsTable).runOn (Recorder.fresh.withNative twoUsers) =
        (.ok (Tabular.ofNative twoUsers).toJson, s) ∧
      (engine.execute (usersUpTo 2) {}).runOn (Recorder.fresh.withNative twoUsers) =
        (.ok rows, s') ∧
      (engine.build (usersUpTo 2) .empty).runOn (Recorder.fresh.withNative twoUsers) =
        (.ok (), built) ∧
      built.offset = 0 ∧ built.limit = some 2 :=
  ⟨_, _, _, _, _, _, rfl, rfl, rfl, rfl, rfl, rfl, rfl, rfl, rfl, rfl, rfl⟩

/-- Two users are shown in both ways by a query for up to two. -/
theorem execute_sameRows_of_usersUpTo_two :
    ∃ engine s s' table, ofSettings .usersOnly = .ok engine ∧
      (engine.execute (usersUpTo 2) wantsTable).runOn (Recorder.fresh.withNative twoUsers) =
        (.ok table, s) ∧
      (engine.execute (usersUpTo 2) {}).runOn (Recorder.fresh.withNative twoUsers) =
        (.ok (.arr (Tabular.ofNative twoUsers).toRows), s') := by
  obtain ⟨engine, definition, s, s', rows, built, hengine, hmax, hread, hasks, htabular, hformat,
    htable, hrows, hbuild, hoffset, hlimit⟩ := exists_runs_usersUpTo_two
  have hwants : (engine.formatFor Request.rows wantsTable).wantsNative = true := by
    rw [htabular]
    rfl
  have hparams : ({} : CallerOptions).params = wantsTable.params := rfl
  obtain ⟨isCapped, built', hbuild', -, -, -, hiff⟩ :=
    execute_sameRows_iff hparams hread hasks rfl hwants hformat htable hrows
  obtain ⟨-, rfl⟩ := Prod.mk.inj (hbuild.symm.trans hbuild')
  have hall : rows = .arr (Tabular.ofNative twoUsers).toRows := by
    refine hiff.mpr (.inr ⟨hoffset, fun n hn => ?_⟩)
    have huncapped : built.limitedTo (engine.cap? Request.rows isCapped) = built := by
      rw [cap?, hmax]
      rfl
    have hrest : built.limit = some n := by rw [← huncapped]; exact hn
    rw [hlimit] at hrest
    obtain rfl := Option.some.inj hrest
    exact Nat.le_refl 2
  exact ⟨engine, s, s', _, hengine, htable, by rw [hrows, hall]⟩

theorem exists_runs_usersUpTo_one :
    ∃ engine definition s s', ofSettings .usersOnly = .ok engine ∧
      Definition.ofJson (usersUpTo 1) = .ok definition ∧
      Request.ofDefinition definition .empty = .ok Request.rows ∧
      engine.formatFor Request.rows wantsTable = .tabular ∧
      engine.formatFor Request.rows {} = .array ∧
      (engine.execute (usersUpTo 1) wantsTable).runOn (Recorder.fresh.withNative twoUsers) =
        (.ok (Tabular.ofNative twoUsers).toJson, s) ∧
      (engine.execute (usersUpTo 1) {}).runOn (Recorder.fresh.withNative twoUsers) =
        (.ok (.arr [.obj [("id", .nat 1)]]), s') :=
  ⟨_, _, _, _, rfl, rfl, rfl, rfl, rfl, rfl, rfl⟩

/-- A table and a list of rows do not hold the same rows for every definition: the table of a
query for one user has two. -/
theorem not_execute_sameRows :
    ¬ ∀ (engine : Engine) (value : Json) (caller caller' : CallerOptions)
      (definition : Definition) (request : Request) (set : NativeSet) (t : Tabular)
      (rows : Json) (s s' : Recorder),
      (set.columns.map (·.name)).Nodup → caller'.params = caller.params →
      Definition.ofJson value = .ok definition →
      Request.ofDefinition definition caller.params = .ok request → request.executor = .get →
      engine.formatFor request caller = .tabular → engine.formatFor request caller' = .array →
      (engine.execute value caller).runOn (Recorder.fresh.withNative set) =
        (.ok t.toJson, s) →
      (engine.execute value caller').runOn (Recorder.fresh.withNative set) = (.ok rows, s') →
      rows = .arr t.toRows := by
  intro h
  obtain ⟨engine, definition, s, s', -, hread, hasks, htabular, hformat, htable, hrows⟩ :=
    exists_runs_usersUpTo_one
  have hsame := h engine (usersUpTo 1) wantsTable {} definition Request.rows twoUsers
    (Tabular.ofNative twoUsers) _ s s' (by simp [twoUsers]) rfl hread hasks rfl htabular hformat
    htable hrows
  rw [Tabular.toRows_ofNative, Json.arr.injEq] at hsame
  simpa [twoUsers, NativeSet.toRows] using congrArg List.length hsame

end Engine

end QueryScript
