import QueryScript.Proofs.Checks
import QueryScript.Recorder.Basic

/-!
# What a build does to a recorder

A build may fail and keeps what it recorded until then.  Two facts are enough to speak
of it.  `Adds`: it only adds calls at the end, and every call that it makes, at whatever
depth, has some property; this holds of a run that fails as well, and is put together
from the steps of the run (`Adds.bind`).  `MakesOne`: it makes exactly one call or fails
without a trace, and which of the two does not depend on the recorder; every method of
the builder is of that kind, because it does all that can fail before it records
anything (`MakesOne.record`, `MakesOne.nested_bind`).
-/

namespace QueryScript

/-- A call is made among `calls`: it is one of them, or made on a builder nested in one. -/
inductive Call.Made (call : Call) : List Call → Prop where
  | here {calls : List Call} (h : call ∈ calls) : Made call calls
  | within {calls inner : List Call} {outer : Call} (houter : outer ∈ calls)
      (hinner : Operand.nested inner ∈ outer.operands) (h : Made call inner) : Made call calls

namespace Call

variable {call : Call} {few many calls later : List Call}

/-- A call that is among some calls, at any depth, is among more calls. -/
theorem Made.mono (h : Made call few) (hsub : few ⊆ many) : Made call many := by
  cases h with
  | here h => exact .here (hsub h)
  | within houter hinner h => exact .within (hsub houter) hinner h

/-- The calls that are made in two lists are those that are made in either, at any depth. -/
theorem made_append : Made call (calls ++ later) ↔ Made call calls ∨ Made call later := by
  constructor
  · intro h
    cases h with
    | here h =>
      rcases List.mem_append.mp h with h | h
      · exact .inl (.here h)
      · exact .inr (.here h)
    | within houter hinner h =>
      rcases List.mem_append.mp houter with houter | houter
      · exact .inl (.within houter hinner h)
      · exact .inr (.within houter hinner h)
  · intro h
    rcases h with h | h
    · exact h.mono (List.subset_append_left _ _)
    · exact h.mono (List.subset_append_right _ _)

theorem not_made_nil : ¬ Made call [] := by
  intro h
  cases h with
  | here h => cases h
  | within houter _ _ => cases houter

end Call

namespace Build

variable {α β : Type}

/-! ## Running the parts of a build -/

/-- A check leaves the recorder as it is. -/
@[simp] theorem runOn_lift (x : Except Error α) (r : Recorder) :
    (lift x).runOn r = (x, r) := by
  cases x with
  | ok a => rfl
  | error e => rfl

/-- A check leaves the recorder as it is. -/
theorem eq_of_runOn_lift {x : Except Error α} {outcome : Except Error α} {r r' : Recorder}
    (h : (lift x).runOn r = (outcome, r')) : x = outcome ∧ r' = r := by
  rw [runOn_lift] at h
  exact ⟨(Prod.mk.inj h).1, (Prod.mk.inj h).2.symm⟩

/-- Builds run one after the other, up to the first failure. -/
theorem runOn_bind (b : Build α) (f : α → Build β) (r : Recorder) :
    (b >>= f).runOn r =
      match b.runOn r with
      | (.ok a, r') => (f a).runOn r'
      | (.error e, r') => (.error e, r') := by
  show ExceptT.bindCont f ((StateT.run (ExceptT.run b) r).1) ((StateT.run (ExceptT.run b) r).2) = _
  rw [show b.runOn r = StateT.run (ExceptT.run b) r from rfl]
  cases StateT.run (ExceptT.run b) r with
  | mk outcome r' =>
    cases outcome with
    | ok a => rfl
    | error e => rfl

/-- After a part that succeeds the rest runs on what it leaves. -/
theorem runOn_bind_of_ok {b : Build α} {f : α → Build β} {r r' : Recorder} {a : α}
    (h : b.runOn r = (.ok a, r')) : (b >>= f).runOn r = (f a).runOn r' := by
  rw [runOn_bind, h]

/-- After a part that fails nothing runs. -/
theorem runOn_bind_of_error {b : Build α} {f : α → Build β} {r r' : Recorder} {e : Error}
    (h : b.runOn r = (.error e, r')) : (b >>= f).runOn r = (.error e, r') := by
  rw [runOn_bind, h]

/-- A check that passes hands on what it found. -/
theorem runOn_lift_bind_of_ok {x : Except Error α} {f : α → Build β} {a : α} (h : x = .ok a)
    (r : Recorder) : (lift x >>= f).runOn r = (f a).runOn r :=
  runOn_bind_of_ok (by rw [runOn_lift, h])

/-- A check that fails ends the build. -/
theorem runOn_lift_bind_of_error {x : Except Error α} {f : α → Build β} {e : Error}
    (h : x = .error e) (r : Recorder) : (lift x >>= f).runOn r = (.error e, r) :=
  runOn_bind_of_error (by rw [runOn_lift, h])

/-- A build of two parts succeeds exactly when both do, one after the other. -/
theorem runOn_bind_eq_ok {b : Build α} {f : α → Build β} {r r' : Recorder} {x : β} :
    (b >>= f).runOn r = (.ok x, r') ↔
      ∃ a mid, b.runOn r = (.ok a, mid) ∧ (f a).runOn mid = (.ok x, r') := by
  rw [runOn_bind]
  cases hb : b.runOn r with
  | mk outcome mid =>
    cases outcome with
    | ok a =>
      constructor
      · intro h
        exact ⟨a, mid, rfl, h⟩
      · intro h
        obtain ⟨a', mid', hok, h⟩ := h
        cases hok
        exact h
    | error e =>
      constructor
      · intro h
        cases h
      · intro h
        obtain ⟨a', mid', hok, _⟩ := h
        cases hok

/-- A build of two parts fails as its first part does, or as its second after the first. -/
theorem runOn_bind_eq_error {b : Build α} {f : α → Build β} {r r' : Recorder} {e : Error}
    (h : (b >>= f).runOn r = (.error e, r')) :
    b.runOn r = (.error e, r') ∨
      ∃ a mid, b.runOn r = (.ok a, mid) ∧ (f a).runOn mid = (.error e, r') := by
  rw [runOn_bind] at h
  cases hb : b.runOn r with
  | mk outcome mid =>
    rw [hb] at h
    cases outcome with
    | ok a => exact .inr ⟨a, mid, rfl, h⟩
    | error e =>
      cases h
      exact .inl rfl

/-- A build succeeds with its result dropped exactly if it does with some result. -/
theorem runOn_discard_eq_ok {b : Build α} {r r' : Recorder} :
    (discard b).runOn r = (.ok (), r') ↔ ∃ a, b.runOn r = (.ok a, r') := by
  have hmap : discard b = b >>= fun _ => pure () := rfl
  rw [hmap, runOn_bind_eq_ok]
  constructor
  · intro h
    obtain ⟨a, mid, hb, hpure⟩ := h
    cases hpure
    exact ⟨a, hb⟩
  · intro h
    obtain ⟨a, hb⟩ := h
    exact ⟨a, r', hb, rfl⟩

end Build

/-! ## The conditions of a join -/

namespace Joining

theorem runOn_replay (cs given : List JoinCondition) :
    (replay cs).runOn given = (.ok (), given ++ cs) := by
  induction cs generalizing given with
  | nil => rw [List.append_nil]; rfl
  | cons c rest ih =>
    show (replay rest).runOn (given ++ [c]) = _
    rw [ih, List.append_assoc, List.singleton_append]

/-- Conditions that are known are those that a join is given. -/
theorem conditions_ofConditions (cs : List JoinCondition) :
    conditions (ofConditions cs) = .ok cs := by
  cases cs with
  | nil => rfl
  | cons c rest =>
    show conditions (some (replay (c :: rest))) = _
    rw [conditions, runOn_replay, List.nil_append]

end Joining

namespace Build

/-- A join on conditions that are known makes its call. -/
theorem join_eq (method : String) (args : List Argument) (on : List JoinCondition) :
    join method args on = record method (args.map .arg ++ conditionOperands on) := by
  rw [join, joinOn, Joining.conditions_ofConditions]
  rfl

/-- A join with a query runs the query aside, and is recorded with its calls. -/
theorem joinQuery_eq (method name : String) (sub : Build Unit) (args : List Argument)
    (on : List JoinCondition) :
    joinQuery method name sub args on = (do
      let calls ← nested sub
      record method (.nested calls :: textOperand name ::
        (args.map .arg ++ conditionOperands on))) := by
  rw [joinQuery, joinQueryOn, Joining.conditions_ofConditions]
  rfl

variable {α β : Type}

/-! ## Builds that only add calls -/

/-- Whatever comes of it, a run adds calls at the end and every call made in it has `P`. -/
def Adds (P : Call → Prop) (b : Build α) : Prop :=
  ∀ r, ∃ added, (b.runOn r).2.calls = r.calls ++ added ∧ ∀ c, Call.Made c added → P c

variable {P Q : Call → Prop} {b : Build α} {f : α → Build β}

/-- What is said of the calls that are added may be weakened. -/
theorem Adds.mono (h : b.Adds P) (hPQ : ∀ c, P c → Q c) : b.Adds Q := by
  intro r
  obtain ⟨added, hcalls, hall⟩ := h r
  exact ⟨added, hcalls, fun c hc => hPQ c (hall c hc)⟩

/-- A build that leaves the recorder as it is adds nothing. -/
theorem adds_of_unchanged (h : ∀ r, (b.runOn r).2 = r) : b.Adds P := by
  intro r
  exact ⟨[], by rw [h r, List.append_nil], fun c hc => absurd hc Call.not_made_nil⟩

theorem adds_pure (a : α) : (pure a : Build α).Adds P :=
  adds_of_unchanged fun _ => rfl

/-- A check adds no call. -/
theorem adds_lift (x : Except Error α) : (lift x).Adds P :=
  adds_of_unchanged fun r => by rw [runOn_lift]

/-- What holds of the calls that each of two builds adds holds of those of both. -/
theorem Adds.bind (hb : b.Adds P) (hf : ∀ a, (f a).Adds P) : (b >>= f).Adds P := by
  intro r
  obtain ⟨added, hcalls, hall⟩ := hb r
  cases hrun : b.runOn r with
  | mk outcome mid =>
    rw [hrun] at hcalls
    cases outcome with
    | error e =>
      rw [runOn_bind_of_error hrun]
      exact ⟨added, hcalls, hall⟩
    | ok a =>
      obtain ⟨later, hlater, hall'⟩ := hf a mid
      rw [runOn_bind_of_ok hrun]
      refine ⟨added ++ later, ?_, ?_⟩
      · rw [hlater, hcalls, List.append_assoc]
      · intro c hc
        rcases Call.made_append.mp hc with hc | hc
        · exact hall c hc
        · exact hall' c hc

/-- Dropping the result changes nothing about the calls. -/
theorem Adds.discard (hb : b.Adds P) : (discard b).Adds P :=
  hb.bind fun _ => adds_pure ()

/-! ## Builds that make one call -/

/-- A change of the visible rows and of nothing else. -/
def MovesWindow (move : Recorder → Recorder) : Prop :=
  ∀ r, ∃ limit offset, move r = { r with limit, offset }

/-- Moving the window makes no call. -/
theorem MovesWindow.calls {move : Recorder → Recorder} (h : MovesWindow move) (r : Recorder) :
    (move r).calls = r.calls := by
  obtain ⟨limit, offset, hr⟩ := h r
  rw [hr]

/-- A build that refuses and leaves no trace, or makes one call with `P`; which of the two does
not depend on the recorder, nor does the call. -/
inductive MakesOne (P : Call → Prop) (b : Build Unit) : Prop where
  | refuses (e : Error) (h : ∀ r, b.runOn r = (.error e, r))
  | makes (call : Call) (move : Recorder → Recorder) (hP : P call) (hmove : MovesWindow move)
      (h : ∀ r, b.runOn r = (.ok (), (move r).record call))

variable {g : α → Build Unit} {method : String} {operands : List Operand}

/-- A build that fails at once makes no call. -/
theorem makesOne_throw (e : Error) : (throw e : Build Unit).MakesOne P :=
  .refuses e fun _ => rfl

/-- Recording makes one call. -/
theorem makesOne_record (h : P (.mk method operands)) : (record method operands).MakesOne P :=
  .makes _ id h (fun r => ⟨r.limit, r.offset, rfl⟩) fun _ => rfl

/-- One call is made after a check, if it succeeds. -/
theorem MakesOne.lift_bind {x : Except Error α} (h : ∀ a, x = .ok a → (g a).MakesOne P) :
    (lift x >>= g).MakesOne P := by
  cases x with
  | error e => exact .refuses e fun r => runOn_bind_of_error (runOn_lift _ r)
  | ok a =>
    cases h a rfl with
    | refuses e hrun => exact .refuses e hrun
    | makes call move hP hmove hrun => exact .makes call move hP hmove hrun

/-- A nested build that succeeds gives its calls and leaves the recorder as it is. -/
theorem runOn_nested_of_ok {sub : Build Unit} {inner : Recorder}
    (h : sub.runOn .fresh = (.ok (), inner)) (r : Recorder) :
    (nested sub).runOn r = (.ok inner.calls, r) := by
  rw [nested, h]
  rfl

/-- One that fails gives its error, and leaves the recorder as it is too. -/
theorem runOn_nested_of_error {sub : Build Unit} {inner : Recorder} {e : Error}
    (h : sub.runOn .fresh = (.error e, inner)) (r : Recorder) :
    (nested sub).runOn r = (.error e, r) := by
  rw [nested, h]
  rfl

/-- Calls made on a builder of its own show only in the call that they are handed to. -/
theorem MakesOne.nested_bind {sub : Build Unit} {k : List Call → Build Unit}
    (h : ∀ r, sub.runOn .fresh = (.ok (), r) → (k r.calls).MakesOne P) :
    (nested sub >>= k).MakesOne P := by
  cases hsub : sub.runOn .fresh with
  | mk outcome inner =>
    cases outcome with
    | error e => exact .refuses e fun r => runOn_bind_of_error (runOn_nested_of_error hsub r)
    | ok _ =>
      -- the nested recorder is fresh, so the calls in it are the same for every outer one
      have hrest := fun r => runOn_bind_of_ok (f := k) (runOn_nested_of_ok hsub r)
      cases h inner hsub with
      | refuses e hrun => exact .refuses e fun r => (hrest r).trans (hrun r)
      | makes call move hP hmove hrun =>
        exact .makes call move hP hmove fun r => (hrest r).trans (hrun r)

/-- What is said of the one call may be weakened. -/
theorem MakesOne.mono {b : Build Unit} (h : b.MakesOne P) (hPQ : ∀ c, P c → Q c) :
    b.MakesOne Q := by
  cases h with
  | refuses e hrun => exact .refuses e hrun
  | makes call move hP hmove hrun => exact .makes call move (hPQ call hP) hmove hrun

/-- A call of the limit family moves the window. -/
theorem movesWindow_of_limitChange {args : List Argument} {move : Recorder → Recorder}
    (h : limitChange method args = .ok move) : MovesWindow move := by
  have hlimit : ∀ x : Except Error (Option Nat),
      (do let n ← x; return fun r : Recorder => { r with limit := n }) = .ok move →
      MovesWindow move := by
    intro x h
    obtain ⟨n, -, hmove⟩ := Checks.bind_eq_ok.mp h
    obtain rfl := Except.ok.inj hmove
    exact fun r => ⟨n, r.offset, rfl⟩
  have hoffset : ∀ x : Except Error (Option Nat),
      (do let n ← x; return fun r : Recorder => { r with offset := n.getD 0 }) = .ok move →
      MovesWindow move := by
    intro x h
    obtain ⟨n, -, hmove⟩ := Checks.bind_eq_ok.mp h
    obtain rfl := Except.ok.inj hmove
    exact fun r => ⟨r.limit, n.getD 0, rfl⟩
  unfold limitChange at h
  split at h
  · exact hlimit _ h
  · exact hlimit _ h
  · exact hoffset _ h
  · exact hoffset _ h
  · obtain ⟨page, -, h⟩ := Checks.bind_eq_ok.mp h
    obtain ⟨size, -, hmove⟩ := Checks.bind_eq_ok.mp h
    obtain rfl := Except.ok.inj hmove
    exact fun r => ⟨_, _, rfl⟩
  · obtain rfl := Except.ok.inj h
    exact fun r => ⟨r.limit, r.offset, rfl⟩

/-- The limit family makes one call. -/
theorem makesOne_limit {args : List Argument} (h : P (.mk method (args.map .arg))) :
    (limit method args).MakesOne P := by
  refine .lift_bind fun move hmove => ?_
  exact .makes _ move h (movesWindow_of_limitChange hmove) fun _ => rfl

/-- A build that makes one call adds it, and what was made on builders nested in it. -/
theorem MakesOne.adds {b : Build Unit} (h : b.MakesOne Q) (hhere : ∀ c, Q c → P c)
    (hinner : ∀ c, Q c → ∀ inner, .nested inner ∈ c.operands → ∀ c', Call.Made c' inner → P c') :
    b.Adds P := by
  cases h with
  | refuses e hrun => exact adds_of_unchanged fun r => by rw [hrun r]
  | makes call move hQ hmove hrun =>
    intro r
    refine ⟨[call], ?_, ?_⟩
    · rw [hrun r]
      show (move r).calls ++ [call] = _
      rw [hmove.calls]
    · intro c hc
      cases hc with
      | here hc =>
        rw [List.mem_singleton.mp hc]
        exact hhere call hQ
      | within houter hin hc =>
        rw [List.mem_singleton.mp houter] at hin
        exact hinner call hQ _ hin c hc

/-! ## Runs that succeed -/

/-- A run of the build can succeed with `a`, and adds these calls. -/
def Runs (b : Build α) (a : α) (added : List Call) : Prop :=
  ∃ r r', b.runOn r = (.ok a, r') ∧ r'.calls = r.calls ++ added

/-- What a run that succeeds adds has whatever the build only adds. -/
theorem Adds.of_runs {a : α} {added : List Call} (hb : b.Adds P) (h : b.Runs a added) :
    ∀ c, Call.Made c added → P c := by
  obtain ⟨r, r', hrun, hcalls⟩ := h
  obtain ⟨added', hcalls', hall⟩ := hb r
  rw [hrun] at hcalls'
  have heq : r.calls ++ added = r.calls ++ added' := hcalls.symm.trans hcalls'
  rw [List.append_cancel_left heq]
  exact hall

/-- A run of two parts is a run of one after a run of the other. -/
theorem runs_bind {x : β} {added : List Call} (hb : b.Adds P) (hf : ∀ a, (f a).Adds Q)
    (h : (b >>= f).Runs x added) :
    ∃ a first second, b.Runs a first ∧ (f a).Runs x second ∧ added = first ++ second := by
  obtain ⟨r, r', hrun, hcalls⟩ := h
  obtain ⟨a, mid, hfirst, hsecond⟩ := runOn_bind_eq_ok.mp hrun
  obtain ⟨first, hmid, -⟩ := hb r
  obtain ⟨second, hend, -⟩ := hf a mid
  rw [hfirst] at hmid
  rw [hsecond] at hend
  -- the calls at the end are those at the start and what the two parts added
  refine ⟨a, first, second, ⟨r, mid, hfirst, hmid⟩, ⟨mid, r', hsecond, hend⟩, ?_⟩
  have hmid' : mid.calls = r.calls ++ first := hmid
  have hend' : r'.calls = mid.calls ++ second := hend
  rw [hcalls, hmid', List.append_assoc] at hend'
  exact List.append_cancel_left hend'

/-- A check that is run gives what it comes out with, without a call. -/
theorem runs_lift {x : Except Error α} {a : α} {added : List Call} (h : (lift x).Runs a added) :
    x = .ok a ∧ added = [] := by
  obtain ⟨r, r', hrun, hcalls⟩ := h
  rw [runOn_lift] at hrun
  cases hrun
  exact ⟨rfl, List.append_right_eq_self.mp hcalls.symm⟩

/-- Returning gives what is returned, without a call. -/
theorem runs_pure {x a : α} {added : List Call} (h : (pure x : Build α).Runs a added) :
    x = a ∧ added = [] := by
  obtain ⟨r, r', hrun, hcalls⟩ := h
  cases hrun
  exact ⟨rfl, List.append_right_eq_self.mp hcalls.symm⟩

/-- A run of two builds whose answers are put together is a run of one after a run of the
other. -/
theorem runs_or {b b' : Build Bool} {answer : Bool} {added : List Call} (hb : b.Adds P)
    (hb' : b'.Adds P)
    (h : (do let x ← b; let y ← b'; return x || y : Build Bool).Runs answer added) :
    ∃ x y first second, b.Runs x first ∧ b'.Runs y second ∧ (x || y) = answer ∧
      added = first ++ second := by
  obtain ⟨x, first, tail, hfirst, htail, rfl⟩ := runs_bind hb
    (fun _ => hb'.bind fun _ => adds_pure (P := P) _) h
  obtain ⟨y, second, last, hsecond, hlast, rfl⟩ := runs_bind hb'
    (fun _ => adds_pure (P := P) _) htail
  obtain ⟨rfl, rfl⟩ := runs_pure hlast
  exact ⟨x, y, first, second, hfirst, hsecond, rfl, by rw [List.append_nil]⟩

/-- A build that makes one call makes it in every run that succeeds. -/
theorem MakesOne.runs {b : Build Unit} {added : List Call} (h : b.MakesOne P)
    (hruns : b.Runs () added) : ∃ call, P call ∧ added = [call] := by
  obtain ⟨r, r', hrun, hcalls⟩ := hruns
  cases h with
  | refuses e hrefuses =>
    rw [hrefuses r] at hrun
    cases hrun
  | makes call move hP hmove hmakes =>
    rw [hmakes r] at hrun
    cases hrun
    have hrecord : ((move r).record call).calls = r.calls ++ [call] := by
      show (move r).calls ++ [call] = _
      rw [hmove.calls]
    rw [hrecord] at hcalls
    exact ⟨call, hP, (List.append_cancel_left hcalls).symm⟩

end Build

end QueryScript
