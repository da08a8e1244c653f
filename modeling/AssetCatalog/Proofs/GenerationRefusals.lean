import AssetCatalog.Generation.Steps
import AssetCatalog.Proofs.TreeGrowth

/-!
# Settings that a generation refuses

All but one are refused before the flow is run: that an export has no path is said after it.
-/

namespace AssetCatalog.Generation

open Value

open Run (Moves bind_eq_error bind_eq_ok rootSite)

variable {s : Settings} {w v : World}
variable {site : Site} {α : Type}
variable (e : Engine)

/-- The tree is as it was, and since then no flow was run and no table written. -/
structure Untouched (v w : World) : Prop where
  tree : w.tree = v.tree
  calls : ∃ new, w.calls = v.calls ++ new ∧ ∀ c ∈ new, c.name ∉ ["generate", "to_json"]

instance : IsPreorder World Untouched where
  refl w := ⟨rfl, [], by simp⟩
  trans u v w := by
    rintro ⟨htree, new, hnew, hnames⟩ ⟨htree', new', hnew', hnames'⟩
    refine ⟨htree'.trans htree, new ++ new', ?_, List.forall_mem_append.mpr ⟨hnames, hnames'⟩⟩
    rw [hnew', hnew, List.append_assoc]

lemma Refusal.fault_ne {r : Refusal} (h : r ≠ .noExportPath) :
    r.fault ≠ Refusal.noExportPath.fault := by
  intro hfault
  have hstart := congrArg (fun f => f.message.toList.head?) hfault
  cases r with
  | noExportPath => exact h rfl
  | unknownFlow _ _ => simp [Refusal.fault, Fault.message, toString] at hstart
  | noModel _ => simp [Refusal.fault, Fault.message, toString] at hstart
  | _ => simp [Refusal.fault] at hfault

/-- An operation that touches nothing and does not fail for want of an export path. -/
abbrev Still (site : Site) (x : Run α) : Prop :=
  Moves site Untouched (· ≠ Refusal.noExportPath.fault) x

lemma log_still (level : Level) (message : String) : Still site (Run.log level message) :=
  Moves.of_eq_ok fun w => ⟨(), _, rfl, rfl, [], by simp⟩

lemma record_still {c : Call} (h : c.name ∉ ["generate", "to_json"]) : Still site (Run.record c) :=
  Moves.of_eq_ok fun w => ⟨(), _, rfl, rfl, [c], rfl, by simpa using h⟩

lemma refuse_still {r : Refusal} (h : r ≠ .noExportPath) : Still site (refuse r : Run α) :=
  Moves.throw (Refusal.fault_ne h)

lemma wrongKind_of_scalarLess {a b : Value} {e : Fault} (h : scalarLess a b = .error e) :
    ∃ m, e = .wrongKind m := by
  unfold scalarLess at h
  repeat' split at h
  all_goals
    cases h
    try exact ⟨_, rfl⟩

lemma still_of_less {a b : Value} (h : a.less b = scalarLess a b) (f : Bool → Except Fault α)
    (hf : ∀ c, ∃ d, f c = .ok d) : Still site (Run.ofExcept (a.less b >>= f)) := by
  apply Moves.ofExcept
  intro e he
  rcases hless : scalarLess a b with e' | c
  · obtain ⟨m, rfl⟩ := wrongKind_of_scalarLess hless
    rw [h, hless] at he
    cases he
    nofun
  · obtain ⟨d, hd⟩ := hf c
    rw [h, hless] at he
    cases hd.symm.trans he

lemma logSettings_still (s : Settings) : Still site (logSettings s) := by
  have hdefault (v : Value) : Still site (Run.ofExcept (orDefault v)) :=
    still_of_less (by cases v <;> simp [less]) _ fun c => ⟨_, rfl⟩
  iterate 9 refine .bind (log_still _ _) fun _ => ?_
  refine .bind (hdefault _) fun _ => .bind (log_still _ _) fun _ => ?_
  refine .bind (hdefault _) fun _ => .bind (log_still _ _) fun _ => ?_
  refine .bind (log_still _ _) fun _ => ?_
  exact .when (log_still _ _) fun _ => .ite (log_still _ _) (.pure ())

lemma leads_still (raw : String) : Still site (Run.leads raw) :=
  Moves.ite (.pure _) (.ite
    (.of_eq_ok fun w => ⟨_, w, Run.isFolder_apply _ site w, refl w⟩) (Moves.exists? _))

lemma deliver_still (a : α) (reason : Option String) : Still site (Engine.deliver a reason) := by
  cases reason with
  | none => exact .pure a
  | some m => exact .throw nofun

lemma loadInput_still (s : Settings) : Still site (loadInput e s) := by
  have hfrom (kind setting path : String) {r : Refusal} (hr : r ≠ .noExportPath) :
      Still site (loadFrom e kind setting path r) := by
    have hread : Still site (e.read path) :=
      Moves.bind (record_still (by simp)) fun _ => deliver_still _ _
    refine .bind (log_still _ _) fun _ => .bind (leads_still path) fun there => ?_
    refine .when (refuse_still hr) fun _ => .bind hread fun _ => ?_
    exact .bind (log_still _ _) fun _ => .pure _
  have hlast (f : Frame) : Still site (do
      Run.log .info s!"Loaded {f.rows} rows with columns: {(Value.list f.columns).exact}"
      pure f) := Moves.bind (log_still _ _) fun _ => .pure f
  unfold loadInput
  cases s.inputArtifact with
  | some path => exact .bind (hfrom _ _ _ nofun) hlast
  | none =>
    dsimp only
    split
    · exact .bind (refuse_still nofun) hlast
    · exact .bind (hfrom _ _ _ nofun) hlast

lemma chooseFlow_still (s : Settings) : Still site (chooseFlow e s) := by
  refine .when (refuse_still nofun) fun _ => .when (log_still _ _) fun _ => ?_
  apply Moves.ite
  · refine .bind (log_still _ _) fun _ => .bind (leads_still _) fun _ => ?_
    exact .when (refuse_still nofun) fun _ => .pure _
  · refine .bind (log_still _ _) fun _ => ?_
    cases e.flow.lookupError with
    | some m => exact refuse_still nofun
    | none => exact .bind (log_still _ _) fun _ => .pure _

lemma loadFlow_still (path : String) : Still site (loadFlow e path) := by
  refine .bind (log_still _ _) fun _ => .bind (record_still (by simp)) fun _ => ?_
  cases e.flow.loadError with
  | some m => exact .throw nofun
  | none => exact .bind (log_still _ _) fun _ => .pure _

lemma configureModel_still (s : Settings) (f : Flow) : Still site (configureModel s f) := by
  have hsetting (name : String) : Still site (Run.setting? name) :=
    Moves.of_eq_ok fun w => ⟨_, w, rfl, refl w⟩
  have hless (v : Value) : less (.int 0) v = scalarLess (.int 0) v := by
    cases v <;> simp [less]
  have hpositive : Still site (Run.ofExcept (isPositive s.tokens)) := by
    have h := @still_of_less site _ _ _ (hless s.tokens) pure fun c => ⟨c, rfl⟩
    rwa [bind_pure] at h
  refine .ite (log_still _ _) (.ite (refuse_still nofun) ?_)
  refine .bind (hsetting _) fun _ => .bind (hsetting _) fun _ => ?_
  refine .bind hpositive fun _ => ?_
  refine .bind (still_of_less (hless _) _ fun c => ⟨_, rfl⟩) fun _ => ?_
  refine .bind (log_still _ _) fun _ => .when (log_still _ _) fun _ => ?_
  refine .bind (record_still (by simp)) fun _ => .bind (deliver_still _ _) fun _ => ?_
  exact log_still _ _

lemma checkData_still (f : Flow) : Still site (checkData f) :=
  Moves.ite (log_still _ _) (.throw nofun)

lemma prepare_still (s : Settings) : Still site (prepare e s) :=
  Moves.bind (logSettings_still s) fun _ => .bind (loadInput_still e s) fun _ =>
    Moves.bind (chooseFlow_still e s) fun _ => .bind (loadFlow_still e _) fun _ =>
      Moves.bind (configureModel_still s _) fun _ => .bind (checkData_still _) fun _ => .pure _

/-! ## From the run of the flow on -/

/-- An operation that fails for other reasons than the settings. -/
abbrev Unrefusing (site : Site) (x : Run α) : Prop :=
  Moves site (fun _ _ => True) (fun e => ∀ r : Refusal, r.fault ≠ e) x

lemma fault_ne_of_isSystem {e : Fault} (h : e.isSystem) (r : Refusal) : r.fault ≠ e := by
  rintro rfl
  cases r <;> cases h

lemma write_unrefusing (f : Frame) (path : String) : Unrefusing site (f.write path) := by
  refine .bind (.of_eq_ok fun _ => ⟨(), _, rfl, trivial⟩) fun _ => ?_
  apply Moves.writeText
  · exact fun _ _ _ => trivial
  · intro w e h
    exact fault_ne_of_isSystem (Tree.isSystem_of_write h)

lemma makeFolders_unrefusing (p : Path) : Unrefusing site (Run.makeFolders p) := by
  apply Moves.makeFolders
  · exact fun _ _ _ => trivial
  · intro w e h
    exact fault_ne_of_isSystem (Tree.isSystem_of_makeFolders h)

lemma exportOutput_unrefusing (output : Frame)
    (h : s.exporting.truthy → s.exportPath ≠ "") : Unrefusing site (exportOutput e s output) := by
  unfold exportOutput
  split
  · next hexport =>
    rw [if_neg (h hexport)]
    refine .bind (makeFolders_unrefusing _) fun _ => .bind (write_unrefusing _ _) fun _ => ?_
    exact .log _ _
  · exact .pure ()

lemma execute_eq {f : Flow} {input : Frame} {result : Except Fault Frame}
    (h : execute s f input site w = (result, v)) :
    (∃ c, v.calls = w.calls ++ [c] ∧ c.name = "generate") ∧
      ((∃ m, result = .error (.failed m)) ∨ result = .ok f.output) := by
  rw [show result = (execute s f input site w).1 by rw [h],
    show v = (execute s f input site w).2 by rw [h]]
  unfold execute
  by_cases hfolder : s.checkpointFolder = ""
  · rw [if_pos hfolder]
    cases f.runError <;> simp [Engine.deliver, Run.record, info]
  · rw [if_neg hfolder]
    cases f.runError <;> simp [Engine.deliver, Run.record, info]

lemma writeOutput_eq_ok {output : Frame} {artifact : String}
    (h : writeOutput output artifact site w = (.ok (), v)) :
    (∃ c, v.calls = w.calls ++ [c] ∧ c.name = "to_json") ∧
      v.tree.read (site.home.join (Path.ofText artifact)).names =
        .ok (.text s!"{output.rows} rows\n") := by
  simp only [writeOutput, Frame.write, Run.record, Run.writeText, Run.bind_apply, Run.locate_apply,
    Run.get_apply, Run.ofExcept_apply, Run.modify_apply, Run.log_apply] at h
  rcases hwrite : w.tree.write (site.home.join (Path.ofText artifact)).names
    (.text s!"{output.rows} rows\n") with e | u <;> rw [hwrite] at h <;> cases h
  exact ⟨⟨_, rfl, rfl⟩, Tree.read_of_write hwrite⟩

/-- A flow was run since, and its output is in the file `artifact`. -/
structure Carried (e : Engine) (artifact : String) (site : Site) (v w : World) : Prop where
  calls : ∃ new run write, w.calls = v.calls ++ new ++ [run, write] ∧
    run.name = "generate" ∧ write.name = "to_json"
  written : w.tree.read (site.home.join (Path.ofText artifact)).names =
    .ok (.text s!"{e.flow.output.rows} rows\n")

lemma flow_of_prepare {e : Engine} {input : Frame} {flow : Flow}
    (h : prepare e s site w = (.ok (input, flow), v)) : flow = e.flow := by
  obtain ⟨_, _, _, h⟩ := bind_eq_ok h
  obtain ⟨_, _, _, h⟩ := bind_eq_ok h
  obtain ⟨_, _, _, h⟩ := bind_eq_ok h
  obtain ⟨f, _, hload, h⟩ := bind_eq_ok h
  obtain ⟨_, _, _, h⟩ := bind_eq_ok h
  obtain ⟨_, _, _, h⟩ := bind_eq_ok h
  cases h
  obtain ⟨_, _, _, hload⟩ := bind_eq_ok hload
  cases hreason : e.flow.loadError with
  | some m =>
    rw [hreason] at hload
    cases hload
  | none =>
    rw [hreason] at hload
    cases hload
    rfl

/-- A generation that ends because something is wrong with its settings has not touched anything,
unless what is wrong is that an export has no path: then the flow was run, and its output is written. -/
theorem generate_refused {e : Engine} {artifact : String} {s : Settings} {w w' : World} {r : Refusal}
    (h : generate e artifact s site w = (.error r.fault, w')) :
    (r ≠ .noExportPath → Untouched w w') ∧ (r = .noExportPath → Carried e artifact site w w') := by
  obtain ⟨hstill, hfault⟩ := prepare_still e s w
  rcases bind_eq_error h with hprepare | ⟨⟨input, flow⟩, v, hprepare, h⟩
  · rw [hprepare] at hstill hfault
    exact ⟨fun _ => hstill, fun hr => absurd (congrArg Refusal.fault hr) (hfault _ rfl)⟩
  obtain rfl := flow_of_prepare hprepare
  rw [hprepare] at hstill
  obtain ⟨new, hnew, -⟩ := hstill.calls
  rcases bind_eq_error h with hexecute | ⟨output, v₁, hexecute, h⟩
  · obtain ⟨m, hm⟩ := (execute_eq hexecute).2.resolve_right nofun
    cases r <;> cases hm
  obtain ⟨⟨run, hrun, hrunName⟩, houtput⟩ := execute_eq hexecute
  obtain rfl : output = e.flow.output := Except.ok.inj (houtput.resolve_left nofun)
  rcases bind_eq_error h with hwrite | ⟨_, v₂, hwrite, h⟩
  · have hwriting : Unrefusing site (writeOutput e.flow.output artifact) :=
      Moves.bind (write_unrefusing _ _) fun _ => .bind (.log _ _) fun _ =>
        Moves.log _ _
    exact absurd rfl ((hwriting v₁).2 _ (by rw [hwrite]) r)
  obtain ⟨⟨write, hcalls, hwriteName⟩, hread⟩ := writeOutput_eq_ok hwrite
  rcases bind_eq_error h with hexport | ⟨_, v₃, _, hmetrics⟩
  · by_cases hpath : s.exporting.truthy = true → s.exportPath ≠ ""
    · exact absurd rfl ((exportOutput_unrefusing e e.flow.output hpath v₂).2 _ (by rw [hexport]) r)
    · obtain ⟨hon, hempty⟩ := Classical.not_imp.mp hpath
      rw [exportOutput, if_pos hon, if_pos (not_ne_iff.mp hempty)] at hexport
      obtain ⟨hr, rfl⟩ := Prod.mk.inj hexport
      refine ⟨fun hne => absurd (Except.error.inj hr).symm (Refusal.fault_ne hne), fun _ => ?_⟩
      exact ⟨⟨new, run, write, by rw [hcalls, hrun, hnew]; simp, hrunName, hwriteName⟩, hread⟩
  · cases hmetrics

def doubling : Engine where
  input := { rows := 1, columns := [.text "a"] }
  flow := { output := { rows := 2, columns := [.text "a"] } }
  timeText := id

theorem generate_refused_input : Untouched {} (generate doubling "out.jsonl" {} rootSite {}).2 := by
  have h : generate doubling "out.jsonl" {} rootSite {} = (.error Refusal.noInput.fault, _) := rfl
  exact (generate_refused h).1 nofun

/-- That there is no path for an export is found when the output is written. -/
theorem generate_refused_export : ∃ w, generate doubling "out.jsonl"
          { inputPath := "in.jsonl", flowId := "f", exporting := .bool true } rootSite
          { tree := { files := [(["in.jsonl"], .text "")] } } =
        (.error Refusal.noExportPath.fault, w) ∧
      w.calls.map Call.name = ["read_json", "from_yaml", "generate", "to_json"] ∧
      w.tree.read ["out.jsonl"] = .ok (.text "2 rows\n") :=
  ⟨_, rfl, rfl, rfl⟩

end AssetCatalog.Generation
