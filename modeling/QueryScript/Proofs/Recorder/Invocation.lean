import QueryScript.Proofs.Recorder.Run

/-!
# The methods of a builder

`Invocation` lists what can be asked of a builder while a query is put together, each method with
what it is given.  Nested queries and the conditions of a join are given as continuations of any
kind: they may call what they like on the builder or the clause that they are handed, and fail at
any point.

An invocation has its effect or none (`Invocation.records_or_refuses`).  Whatever can fail in it
comes before anything is recorded, and a continuation works on a builder of its own, so a failure
finds the recorder as it was; a success is one more call, and a change of the window for the methods
that set it.  So after any number of invocations, whether they failed or not, all else is as it was
(`Invocation.runAll_keeps`).
-/

namespace QueryScript

/-- A method of a builder with what it is given. -/
inductive Invocation where
  | fromTable (method table : String)
  | fromRaw (method : String) (args : List Argument)
  | fromSub (method name : String) (sub : Build Unit)
  | select (method : String) (args : List Argument)
  | subSelect (method name : String) (sub : Build Unit)
  | join (method : String) (args : List Argument) (on : Option (Joining Unit))
  | joinSub (method name : String) (sub : Build Unit) (args : List Argument)
      (on : Option (Joining Unit))
  | whereClause (method : String) (args : List Argument)
  | whereNested (method : String) (group : Build Unit)
  | whereSub (method : String) (args : List Argument) (sub : Build Unit)
  | whereExists (method : String) (sub : Build Unit)
  | groupBy (method : String) (args : List Argument)
  | having (method : String) (args : List Argument)
  | orderBy (method : String) (args : List Argument)
  | clearOrders (method : String)
  | limit (method : String) (args : List Argument)
  | lock (method : String) (args : List Argument)
  | union (method : String) (sub : Build Unit)
  | withQuery (method name : String) (sub : Build Unit)

namespace Invocation

/-- What the invocation does. -/
def build : Invocation → Build Unit
  | .fromTable method table => .fromTable method table
  | .fromRaw method args | .select method args | .whereClause method args | .groupBy method args
  | .having method args | .orderBy method args | .lock method args => .call method args
  | .clearOrders method => .call method []
  | .fromSub method name sub | .subSelect method name sub => .fromQuery method name sub
  | .join method args on => .joinOn method args on
  | .joinSub method name sub args on => .joinQueryOn method name sub args on
  | .whereNested method sub | .whereExists method sub | .union method sub => .group method sub
  | .whereSub method args sub => .whereQuery method args sub
  | .limit method args => .limit method args
  | .withQuery method name sub => .withQuery method name sub

/-- The name that the method is called by. -/
def method : Invocation → String
  | .fromTable method _ | .fromRaw method _ | .fromSub method _ _ | .select method _
  | .subSelect method _ _ | .join method _ _ | .joinSub method _ _ _ _ | .whereClause method _
  | .whereNested method _ | .whereSub method _ _ | .whereExists method _ | .groupBy method _
  | .having method _ | .orderBy method _ | .clearOrders method | .limit method _ | .lock method _
  | .union method _ | .withQuery method _ _ => method

/-- Whether the invocation sets the cap on the number of visible rows. -/
def setsLimit : Invocation → Bool
  | .limit method _ => ["limit", "take", "forPage"].contains method
  | _ => false

/-- Whether the invocation sets the number of rows that are skipped. -/
def setsOffset : Invocation → Bool
  | .limit method _ => ["offset", "skip", "forPage"].contains method
  | _ => false

end Invocation

namespace Build

variable {α β γ : Type} {part : Recorder → γ}

/-- Whatever comes of it, a run keeps a part of the recorder. -/
def Keeps (part : Recorder → γ) (b : Build α) : Prop :=
  ∀ r, part (b.runOn r).2 = part r

theorem keeps_lift (x : Except Error α) : (lift x).Keeps part := fun r => by rw [runOn_lift]

theorem keeps_nested (sub : Build Unit) : (nested sub).Keeps part := by
  intro r
  rw [nested]
  split <;> rfl

/-- A part of the state that each of two builds keeps is kept by both in a row. -/
theorem Keeps.bind {b : Build α} {f : α → Build β} (hb : b.Keeps part)
    (hf : ∀ a, (f a).Keeps part) : (b >>= f).Keeps part := by
  intro r
  cases hrun : b.runOn r with
  | mk outcome mid =>
    have hmid : part mid = part r := by rw [← hb r, hrun]
    cases outcome with
    | error e => rw [runOn_bind_of_error hrun, hmid]
    | ok a => rw [runOn_bind_of_ok hrun, hf a mid, hmid]

theorem keeps_record (hrecord : ∀ r c, part (Recorder.record r c) = part r) (method : String)
    (operands : List Operand) : (record method operands).Keeps part :=
  fun r => hrecord r (.mk method operands)

/-- A change of the window keeps the cap and the number of rows that are skipped, each unless it
sets it. -/
theorem keeps_of_limitChange {method : String} {args : List Argument} {move : Recorder → Recorder}
    (h : limitChange method args = .ok move) (r : Recorder) :
    (["limit", "take", "forPage"].contains method = false → (move r).limit = r.limit) ∧
      (["offset", "skip", "forPage"].contains method = false → (move r).offset = r.offset) := by
  unfold limitChange at h
  -- the methods that set the cap, those that set the offset, the one that sets both, and all others
  split at h
  case h_1 | h_2 =>
    obtain ⟨n, -, hmove⟩ := Checks.bind_eq_ok.mp h
    rw [← Except.ok.inj hmove]
    exact ⟨nofun, fun _ => rfl⟩
  case h_3 | h_4 =>
    obtain ⟨n, -, hmove⟩ := Checks.bind_eq_ok.mp h
    rw [← Except.ok.inj hmove]
    exact ⟨fun _ => rfl, nofun⟩
  case h_5 => exact ⟨nofun, nofun⟩
  case h_6 =>
    rw [← Except.ok.inj h]
    exact ⟨fun _ => rfl, fun _ => rfl⟩

end Build

namespace Invocation

open Build

variable {γ : Type} {part : Recorder → γ} {i : Invocation}

/-- An invocation makes one call under its name, or it refuses and leaves no trace. -/
theorem build_makesOne (i : Invocation) : i.build.MakesOne fun c => c.method = i.method := by
  cases i with
  | fromTable | fromRaw | select | whereClause | groupBy | having | orderBy | clearOrders | lock =>
    exact makesOne_record rfl
  | fromSub | subSelect | whereNested | whereSub | whereExists | union | withQuery =>
    exact .nested_bind fun _ _ => makesOne_record rfl
  | join => exact .lift_bind fun _ _ => makesOne_record rfl
  | joinSub => exact .nested_bind fun _ _ => .lift_bind fun _ _ => makesOne_record rfl
  | limit => exact makesOne_limit rfl

/-- An invocation keeps what a further call keeps, and a change of the window if it makes one. -/
theorem build_keeps (hrecord : ∀ r c, part (Recorder.record r c) = part r)
    (hmove : ∀ method args move, i = .limit method args → limitChange method args = .ok move →
      ∀ r, part (move r) = part r) : i.build.Keeps part := by
  cases i with
  | fromTable | fromRaw | select | whereClause | groupBy | having | orderBy | clearOrders | lock =>
    exact keeps_record hrecord _ _
  | fromSub | subSelect | whereNested | whereSub | whereExists | union | withQuery =>
    exact (keeps_nested _).bind fun _ => keeps_record hrecord _ _
  | join => exact (keeps_lift _).bind fun _ => keeps_record hrecord _ _
  | joinSub =>
    exact (keeps_nested _).bind fun _ => (keeps_lift _).bind fun _ => keeps_record hrecord _ _
  | limit method args =>
    intro r
    show part ((Build.limit method args).runOn r).2 = part r
    rw [Build.limit]
    cases hchange : limitChange method args with
    | error e => rw [runOn_lift_bind_of_error rfl]
    | ok move =>
      rw [runOn_lift_bind_of_ok rfl]
      show part (Recorder.record (move r) _) = part r
      rw [hrecord, hmove method args move rfl hchange]

theorem build_keeps_limit (h : i.setsLimit = false) : i.build.Keeps Recorder.limit := by
  refine build_keeps (fun _ _ => rfl) fun method args move hi hchange => ?_
  rw [hi] at h
  exact fun r => (keeps_of_limitChange hchange r).1 h

theorem build_keeps_offset (h : i.setsOffset = false) : i.build.Keeps Recorder.offset := by
  refine build_keeps (fun _ _ => rfl) fun method args move hi hchange => ?_
  rw [hi] at h
  exact fun r => (keeps_of_limitChange hchange r).2 h

/-- **An invocation has its effect or none.**  On any recorder it fails and leaves the recorder as
it is, or it succeeds with one more call, which is named after the method.  Of the rest nothing is
changed but the cap and the number of skipped rows, each only by the methods that set it. -/
theorem records_or_refuses (i : Invocation) (r : Recorder) :
    (∃ e, i.build.runOn r = (.error e, r)) ∨
      ∃ call limit offset,
        i.build.runOn r = (.ok (), { r with calls := r.calls ++ [call], limit, offset }) ∧
          call.method = i.method ∧ (i.setsLimit = false → limit = r.limit) ∧
          (i.setsOffset = false → offset = r.offset) := by
  cases i.build_makesOne with
  | refuses e hrun => exact .inl ⟨e, hrun r⟩
  | makes call move hmethod hmove hrun =>
    obtain ⟨limit, offset, hmoved⟩ := hmove r
    have hends : i.build.runOn r =
        (.ok (), { r with calls := r.calls ++ [call], limit, offset }) := by
      rw [hrun r, hmoved]
      rfl
    refine .inr ⟨call, limit, offset, hends, hmethod, fun hsets => ?_, fun hsets => ?_⟩
    · have hkeeps := build_keeps_limit hsets r
      rwa [hends] at hkeeps
    · have hkeeps := build_keeps_offset hsets r
      rwa [hends] at hkeeps

/-- A continuation that fails after a condition of the join was added leaves no trace. -/
example (r : Recorder) (e : Error) (c : JoinCondition) :
    (joinSub "joinSub" "t" (Build.call "select" []) [] (some do Joining.on c; throw e)).build.runOn
      r = (.error e, r) := rfl

/-! ## Many invocations -/

/-- A recorder after invocations that follow each other, whichever of them fail. -/
def runAll : List Invocation → Recorder → Recorder
  | [], r => r
  | i :: rest, r => runAll rest (i.build.runOn r).2

/-- However many invocations there are, nothing changes but the calls and the window. -/
theorem runAll_keeps (part : Recorder → γ) (hpart : ∀ (r : Recorder) calls limit offset,
    part { r with calls, limit, offset } = part r) (is : List Invocation) (r : Recorder) :
    part (runAll is r) = part r := by
  induction is generalizing r with
  | nil => rfl
  | cons i rest ih =>
    have hkeeps : i.build.Keeps part := by
      refine build_keeps (fun r c => hpart r _ _ _) fun _ _ move _ hchange r => ?_
      obtain ⟨limit, offset, hmoved⟩ := movesWindow_of_limitChange hchange r
      rw [hmoved, hpart]
    rw [runAll, ih, hkeeps r]

end Invocation

end QueryScript
