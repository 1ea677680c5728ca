import QueryScript.Proofs.Engine.Execution
import QueryScript.Proofs.Execution.Credentials
import QueryScript.Proofs.Guard.Editing

/-!
# Connection options do not show

Where to run, for how long and as whom is said in three places: in the defaults of a deployment,
beside the executor of a definition, and by the caller.  An execution lays the three over each other
and hands them to the builder with the executor.  Nothing else is done with them, so two executions
that differ in nothing else give the same, failures included, and make the same calls
(`execute_ignoresConnection`).

The caller may also ask for the driver's own result among these options.  That has no effect
either: whether it is asked for is decided by the format alone.

The two executions are one program up to the call of the executor.  They read requests that are the
same but for options (`Request.ofEntries_agree`), they build the same query, since what they check
and assemble does not look at the step of an executor for more than its markers, and the executor
answers the same (`Build.execute_agrees`).
-/

namespace QueryScript

/-- Two deployments have the same settings but for the connection. -/
structure Settings.SameButConnection (settings settings' : Settings) : Prop where
  security : settings.security = settings'.security
  returnFormat : settings.defaults.returnFormat = settings'.defaults.returnFormat
  maxRows : settings.defaults.maxRows = settings'.defaults.maxRows

/-- Two engines have the same guard, and the same defaults but for the connection. -/
structure Engine.SameButConnection (engine engine' : Engine) : Prop where
  guard : engine.guard = engine'.guard
  returnFormat : engine.defaults.returnFormat = engine'.defaults.returnFormat
  maxRows : engine.defaults.maxRows = engine'.defaults.maxRows

/-- Two values write the same definition, but for credentials of steps that name an executor. -/
inductive Definition.SameButCredentials : Json → Json → Prop where
  | same (value : Json) : SameButCredentials value value
  | items {xs ys : List Json} (h : List.Forall₂ Json.SameButCredentials xs ys) :
      SameButCredentials (.arr xs) (.arr ys)

/-! ## The query is the same -/

namespace Json.SameButCredentials

variable {guard : Guard} {scope : Scope} {ctes : CteNames} {v w : Json} {es fs : Entries}
  {xs ys : List Json}

theorem inItem_eq (h : SameButCredentials v w) :
    CteNames.inItem (Item.ofJson v) = CteNames.inItem (Item.ofJson w) := by
  rcases h.cases_ofJson with rfl | ⟨es, fs, name, nested, -, hv, hw, hes, hfs⟩
  · rfl
  · rw [hv, hw, CteNames.inItem, CteNames.inItem, CteNames.declared?, CteNames.declared?, hes, hfs]

/-- The keys of credentials are reserved, and no text holds a marker. -/
theorem checkEntry_eq {e f : String × Json} (h : Entries.SameButText e f) :
    guard.checkEntry ctes e.1 e.2 = guard.checkEntry ctes f.1 f.2 := by
  cases h with
  | same => rfl
  | @text key hkey s t =>
    have hreserved : ∀ k ∈ Request.credentialKeys, Action.isReserved k = true := by decide
    rw [Guard.checkEntry, Guard.checkEntry, if_pos (hreserved key hkey),
      if_pos (hreserved key hkey)]

theorem checkMarkersEntries_eq (h : es.SameButTexts fs) :
    guard.checkMarkersEntries es = guard.checkMarkersEntries fs := by
  induction h with
  | nil => rfl
  | @cons e _ _ _ hentry _ ih =>
    cases hentry with
    | same =>
      obtain ⟨key, v⟩ := e
      rw [Guard.checkMarkersEntries, Guard.checkMarkersEntries, ih]
    | text =>
      rw [Guard.checkMarkersEntries, Guard.checkMarkersEntries, ih]
      rfl

theorem checkItem_eq (h : SameButCredentials v w) :
    guard.checkItem ctes (Item.ofJson v) = guard.checkItem ctes (Item.ofJson w) := by
  rcases h.cases_ofJson with rfl | ⟨es, fs, name, nested, htexts, hv, hw, -, -⟩
  · rfl
  · rw [hv, hw, Guard.checkItem, Guard.checkItem, checkMarkersEntries_eq htexts,
      Checks.forM_congr (htexts.imp fun _ _ => checkEntry_eq)]

/-- Credentials do not reach the assembly of an item. -/
theorem assembleItem_eq (h : SameButCredentials v w) :
    scope.assembleItem (Item.ofJson v) = scope.assembleItem (Item.ofJson w) := by
  rcases h.cases_ofJson with rfl | ⟨es, fs, name, nested, -, hv, hw, hes, hfs⟩
  · rfl
  · rw [hv, hw, Scope.assembleItem, Scope.assembleItem, Scope.step, Scope.step, hes, hfs]

/-- Items that differ in credentials alone declare the same names. -/
theorem collect_eq (h : List.Forall₂ SameButCredentials xs ys) :
    CteNames.collect (Item.ofItems xs) = CteNames.collect (Item.ofItems ys) := by
  have hnames : CteNames.inItems (Item.ofItems xs) = CteNames.inItems (Item.ofItems ys) := by
    induction h with
    | nil => rfl
    | cons hitem _ ih =>
      rw [Item.ofItems, Item.ofItems, CteNames.inItems, CteNames.inItems, hitem.inItem_eq, ih]
  rw [CteNames.collect, CteNames.collect, hnames]

theorem checkItems_eq (h : List.Forall₂ SameButCredentials xs ys) :
    guard.checkItems ctes (Item.ofItems xs) = guard.checkItems ctes (Item.ofItems ys) := by
  induction h with
  | nil => rfl
  | cons hitem _ ih =>
    rw [Item.ofItems, Item.ofItems, Guard.checkItems, Guard.checkItems, hitem.checkItem_eq, ih]

/-- Credentials do not reach the assembly of a definition. -/
theorem assemble_eq (h : List.Forall₂ SameButCredentials xs ys) :
    scope.assemble (Item.ofItems xs) = scope.assemble (Item.ofItems ys) := by
  have hsteps : scope.assembleItems (Item.ofItems xs) = scope.assembleItems (Item.ofItems ys) := by
    induction h with
    | nil => rfl
    | cons hitem _ ih =>
      rw [Item.ofItems, Item.ofItems, Scope.assembleItems, Scope.assembleItems,
        hitem.assembleItem_eq, ih]
  rw [Scope.assemble, Scope.assemble, hsteps]

end Json.SameButCredentials

/-! ## The two executions -/

namespace Engine

variable {engine engine' : Engine} {request request' : Request} {params : Params}
  {format? : Option Format} {options options' : Options} {xs ys : List Json}

theorem sameButConnection_of_ofSettings {settings settings' : Settings}
    (hsettings : settings.SameButConnection settings') (hengine : ofSettings settings = .ok engine)
    (hengine' : ofSettings settings' = .ok engine') : engine.SameButConnection engine' := by
  obtain ⟨guard, hguard, hpure⟩ := Checks.bind_eq_ok.mp hengine
  obtain ⟨guard', hguard', hpure'⟩ := Checks.bind_eq_ok.mp hengine'
  cases hpure
  cases hpure'
  rw [hsettings.security] at hguard
  exact ⟨Except.ok.inj (hguard.symm.trans hguard'), hsettings.returnFormat, hsettings.maxRows⟩

theorem buildDefinition_eq_of_items (hengine : engine.SameButConnection engine')
    (h : List.Forall₂ Json.SameButCredentials xs ys) :
    engine.buildDefinition (Item.ofItems xs) params =
      engine'.buildDefinition (Item.ofItems ys) params := by
  have hguard : engine.buildDefinition (Item.ofItems ys) params =
      engine'.buildDefinition (Item.ofItems ys) params := by
    rw [buildDefinition, buildDefinition, hengine.guard]
  rw [← hguard]
  have hnames := Json.SameButCredentials.collect_eq h
  exact buildDefinition_congr hnames
    (Guard.checkDefinition_congr hnames fun _ => Json.SameButCredentials.checkItems_eq h)
    (Json.SameButCredentials.assemble_eq h)

theorem formatFor_eq (hengine : engine.SameButConnection engine')
    (hrequest : request.SameButOptions request') :
    engine.formatFor request ⟨params, format?, options⟩ =
      engine'.formatFor request' ⟨params, format?, options'⟩ := by
  rw [formatFor, formatFor, hengine.returnFormat, hrequest.returnFormat]

/-- The options that the two hand to the builder ask for the driver's own result alike. -/
theorem native_optionsFor_eq (hengine : engine.SameButConnection engine')
    (hrequest : request.SameButOptions request') :
    (engine.optionsFor request ⟨params, format?, options⟩).native =
      (engine'.optionsFor request' ⟨params, format?, options'⟩).native := by
  rw [optionsFor, optionsFor]
  dsimp only
  rw [formatFor_eq hengine hrequest, hrequest.executor]

theorem capPage_sameButOptions (hengine : engine.SameButConnection engine')
    (hrequest : request.SameButOptions request') :
    (engine.capPage request).SameButOptions (engine'.capPage request') := by
  rw [capPage, capPage, hengine.maxRows]
  cases engine'.defaults.maxRows with
  | none => exact hrequest
  | some n =>
    dsimp only
    rw [Request.capped, Request.capped, hrequest.executor]
    split
    · exact ⟨rfl, congrArg (Request.withPageSize n) hrequest.args, hrequest.returnFormat⟩
    · exact hrequest

/-- The executor is called with the same arguments. -/
theorem ask_agrees (hengine : engine.SameButConnection engine')
    (hrequest : request.SameButOptions request') (hnative : options.native = options'.native) :
    (engine.ask request options).AgreeButOptions (engine'.ask request' options') := by
  by_cases havg : request.executor = .avg
  · have havg' : request'.executor = .avg := hrequest.executor ▸ havg
    rw [ask, ask, havg, havg', hrequest.args]
    exact Average.run_agrees hnative _
  · rw [ask_of_ne havg, ask_of_ne (hrequest.executor ▸ havg), hengine.guard, hrequest.args,
      hrequest.executor]
    exact .after _ fun args => Build.execute_agrees hnative _ args

theorem conclude_agrees (hengine : engine.SameButConnection engine')
    (hrequest : request.SameButOptions request') (isCapped : Bool) :
    (engine.conclude request ⟨params, format?, options⟩ isCapped).AgreeButOptions
      (engine'.conclude request' ⟨params, format?, options'⟩ isCapped) := by
  have hcap : engine.capRows request isCapped = engine'.capRows request' isCapped := by
    rw [capRows, capRows, hengine.maxRows, hrequest.executor]
  have hformat : engine.formatFor request ⟨params, format?, options⟩ =
      engine'.formatFor request' ⟨params, format?, options'⟩ := formatFor_eq hengine hrequest
  rw [conclude, conclude, hcap, hformat, hrequest.executor]
  refine .after _ fun _ => .lift ?_ _
  exact ask_agrees hengine (capPage_sameButOptions hengine hrequest)
    (native_optionsFor_eq hengine hrequest)

/-- **Connection options do not show in an execution.**  Two executions whose deployments, callers
and definitions differ in connection options alone give the same result or fail alike, on every
recorder, and leave the same calls; only the options that the recorder keeps may differ. -/
theorem execute_ignoresConnection {settings settings' : Settings}
    (hsettings : settings.SameButConnection settings') (hengine : ofSettings settings = .ok engine)
    (hengine' : ofSettings settings' = .ok engine') {value value' : Json}
    (hvalue : Definition.SameButCredentials value value') (params : Params)
    (format? : Option Format) (options options' : Options) :
    (engine.execute value ⟨params, format?, options⟩).AgreeButOptions
      (engine'.execute value' ⟨params, format?, options'⟩) := by
  have hsame := sameButConnection_of_ofSettings hsettings hengine hengine'
  have hread : Checks.Agree (fun d d' => ∃ xs ys, List.Forall₂ Json.SameButCredentials xs ys ∧
      d = Item.ofItems xs ∧ d' = Item.ofItems ys) (Definition.ofJson value)
      (Definition.ofJson value') := by
    cases hvalue with
    | items h => exact .ok ⟨_, _, h, rfl, rfl⟩
    | same =>
      cases value with
      | arr xs => exact .ok ⟨xs, xs, Json.SameButCredentials.refl_items xs, rfl, rfl⟩
      | _ => exact .error _
  rw [execute, execute]
  refine .bind_lift hread ?_
  rintro _ _ ⟨xs, ys, hitems, rfl, rfl⟩
  refine .bind_lift (Json.SameButCredentials.ofDefinition_agree hitems) fun q q' hrequest => ?_
  have hpermitted : engine.guard.checkExecutor q.executor.name =
      engine'.guard.checkExecutor q'.executor.name := by
    rw [hsame.guard, hrequest.executor]
  rw [hpermitted, buildDefinition_eq_of_items hsame hitems]
  refine .after _ fun _ => .after _ fun isCapped => ?_
  show (engine.conclude q ⟨params, format?, options⟩ isCapped).AgreeButOptions
    (engine'.conclude q' ⟨params, format?, options'⟩ isCapped)
  exact conclude_agrees hsame hrequest isCapped

/-- A query whose rows are asked for as some user. -/
def userQuery (user : String) : Json :=
  .arr [.obj [("from", .str "users")], .obj [("get", .bool true), ("username", .str user)]]

/-- Another user, with a password, on another machine, who asks for the driver's own result, gets
the same; the builder is told of all but the last. -/
theorem execute_ignoresConnection_userQuery :
    ∃ engine engine', ofSettings .usersOnly = .ok engine ∧
      ofSettings { Settings.usersOnly with defaults := { datasource := some "replica" } } =
        .ok engine' ∧
      (engine.execute (userQuery "reader") ⟨.empty, none, {}⟩).AgreeButOptions
        (engine'.execute (userQuery "writer")
          ⟨.empty, none, { password := some "swordfish", native := true }⟩) ∧
      ((engine'.execute (userQuery "writer")
          ⟨.empty, none, { password := some "swordfish", native := true }⟩).runOn
        .fresh).2.lastOptions =
          some { datasource := some "replica", username := some "writer",
                 password := some "swordfish" } := by
  have hsettings : Settings.SameButConnection .usersOnly
      { Settings.usersOnly with defaults := { datasource := some "replica" } } := ⟨rfl, rfl, rfl⟩
  have hentries : Entries.SameButTexts [("get", .bool true), ("username", .str "reader")]
      [("get", .bool true), ("username", .str "writer")] :=
    .cons (.same _) (.cons (.text (by decide) _ _) .nil)
  have hhead : Head.ofEntries? [("get", .bool true), ("username", .str "reader")] =
      some (.executor "get") := by decide
  have hvalue : Definition.SameButCredentials (userQuery "reader") (userQuery "writer") :=
    .items (.cons (.same _) (.cons (.executor hhead hentries) .nil))
  exact ⟨_, _, rfl, rfl, execute_ignoresConnection hsettings rfl rfl hvalue _ _ _ _, rfl⟩

end Engine

end QueryScript
