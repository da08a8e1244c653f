import AssetCatalog.Proofs.CheckGate
import AssetCatalog.Proofs.TreeGrowth

/-!
# How the gate ends

Checks that do not pass are told by the log and a status, except that the asking run is not listed yet:
that fault escapes.
-/

namespace AssetCatalog.Checks

open Run (bind_apply rootSite)

variable {args : Arguments} {site : Site} {w ready : World} {name : String} {runs : List Value}

/-! ## The asking run -/

def ownFor (args : Arguments) : Run Value :=
  ownId (args.textOf "--repo" "") (args.textOf "--head-sha" "") (args.textOf "--check-name" "")

def missing (name : String) : Fault := .checks s!"Check run '{name}' not found"

/-- Runs that all have names, and other ones. -/
def Unlisted (name : String) (runs : List Value) : Prop :=
  ∀ run ∈ runs, ∃ n, textField? "name" run = some n ∧ n ≠ name

lemma idOf_of_unlisted (h : Unlisted name runs) : idOf name runs = .ok none := by
  induction runs with
  | nil => rfl
  | cons run runs ih =>
    obtain ⟨⟨n, hn, hne⟩, hruns⟩ := List.forall_mem_cons.mp h
    have hother : ¬(Value.text n).same (.text name) := by
      rw [Value.same_text_right]
      simpa using hne
    rw [idOf, need_eq_ok.mpr (textField?_eq_some.mp hn), except_ok_bind, if_neg hother]
    exact ih hruns

lemma ownId_of_unlisted (hruns : runs? (w.reply 0) = some runs) (h : Unlisted name runs)
    (repo commit : String) (site : Site) :
    (ownId repo commit name site w).1 = .error (missing name) := by
  unfold runs? at hruns
  split at hruns
  · next hstatus =>
    rcases hparse : Json.parse (w.reply 0).output with e | v <;> rw [hparse] at hruns
    · cases hruns
    · have hlist : runsOf v >>= Value.visits = .ok runs :=
        except_bind_eq_ok.mpr (listing?_eq_some.mp hruns)
      rw [ownId, bind_apply, fetchRuns_apply, if_pos hstatus, hparse]
      dsimp only
      rw [bind_apply, Run.ofExcept_apply, hlist]
      dsimp only
      rw [idOf_of_unlisted h]
      rfl
  · cases hruns

/-! ## The gate -/

lemma saveFor_ne_checks (args : Arguments) (site : Site) (w : World) (m : String) :
    (saveFor args site w).1 ≠ .error (.checks m) := by
  have hsave : Run.Moves site (fun _ _ => True) (fun e => e.isSystem) (saveFor args) := by
    refine .bind (.bind (.makeFolders (fun _ _ _ => trivial) fun _ _ => Tree.isSystem_of_makeFolders)
      fun _ => .bind ?_ fun _ => ?_) fun _ => .of_eq_ok fun w => ⟨0, w, rfl, trivial⟩
    · exact .writeText (fun _ _ _ => trivial) fun _ _ => Tree.isSystem_of_write
    · exact .writeText (fun _ _ _ => trivial) fun _ _ => Tree.isSystem_of_write
  intro h
  cases (hsave w).2 _ h

/-- How a gate ends that goes ahead. -/
structure Proceeds (args : Arguments) (site : Site) (w : World) (result : Except Fault ℤ × World) :
    Prop where
  escapes : ∀ m, result.1 = .error (.checks m) ↔ (ownFor args site w).1 = .error (.checks m)
  told : ∀ own known m after, ownFor args site w = (.ok own, known) →
    await (waitOf args own) site known = (.error (.checks m), after) →
    result.1 = .ok 1 ∧ result.2.log.getLast? = some ⟨.error, s!"CI checks failed: {m}"⟩
  saved : ∀ own known after, ownFor args site w = (.ok own, known) →
    await (waitOf args own) site known = (.ok (), after) → result = saveFor args site after

lemma proceeds (args : Arguments) (site : Site) (w : World) :
    Proceeds args site w (proceed args site w) := by
  rw [proceed, ← ownFor, bind_apply]
  rcases hown : ownFor args site w with ⟨e | own, known⟩ <;> dsimp only
  · refine ⟨fun m => by simp [hown], ?_, ?_⟩
    · rintro _ _ _ _ h
      cases hown.symm.trans h
    · rintro _ _ _ h
      cases hown.symm.trans h
  rw [bind_apply, Run.attempt_apply]
  rcases hawait : await (waitOf args own) site known with ⟨e | _, after⟩
  · refine ⟨fun m => ?_, ?_, ?_⟩
    · rw [hown]
      refine iff_of_false ?_ (by rintro ⟨⟩)
      cases e <;> rintro ⟨⟩
    · rintro _ _ m _ h h'
      cases hown.symm.trans h
      cases hawait.symm.trans h'
      exact ⟨rfl, List.getLast?_concat ..⟩
    · rintro _ _ _ h h'
      cases hown.symm.trans h
      cases hawait.symm.trans h'
  · refine ⟨fun m => ?_, ?_, ?_⟩
    · rw [hown]
      exact iff_of_false (saveFor_ne_checks args site after m) (by rintro ⟨⟩)
    · rintro _ _ m _ h h'
      cases hown.symm.trans h
      cases hawait.symm.trans h'
    · rintro _ _ _ h h'
      cases hown.symm.trans h
      cases hawait.symm.trans h'
      rfl

lemma command_apply {words : List String}
    (hread : (CommandLine.read gateArguments words [] site w).1 = .ok args)
    (hready : resetFor args site w = (.ok (), ready)) :
    (IsAdmitted args ∧ command words site w = proceed args site ready) ∨
      (¬IsAdmitted args ∧ (command words site w).1 = .ok 0) := by
  have hargs : CommandLine.read gateArguments words [] site w = (.ok args, w) :=
    Prod.ext hread (read_gateArguments words site w)
  rw [command, Run.bind_of_eq hargs, Run.bind_of_eq hready, ← mayRunFor_iff]
  split
  · next hmay => exact .inl ⟨hmay, rfl⟩
  · next hmay => exact .inr ⟨hmay, rfl⟩

/-- Whatever is replied, a gate whose checks do not pass says so in the log and ends with the status
one, with one exception: the fault that the asking run is not listed escapes. -/
theorem command_outcome (words : List String) (site : Site) (w ready : World) (args : Arguments)
    (hread : (CommandLine.read gateArguments words [] site w).1 = .ok args)
    (hready : resetFor args site w = (.ok (), ready)) :
    let name := args.textOf "--check-name" ""
    let result := command words site w
    (∀ m, result.1 = .error (.checks m) ↔
      IsAdmitted args ∧ (ownFor args site ready).1 = .error (.checks m)) ∧
    (∀ runs, IsAdmitted args → runs? (ready.reply 0) = some runs → Unlisted name runs →
      result.1 = .error (missing name)) ∧
    (IsAdmitted args → Proceeds args site ready result) ∧
    (¬IsAdmitted args → result.1 = .ok 0) := by
  rcases command_apply hread hready with ⟨hmay, hresult⟩ | ⟨hnot, hresult⟩
  · have hends := proceeds args site ready
    dsimp only
    rw [hresult]
    refine ⟨fun m => by rw [hends.escapes, and_iff_right hmay], ?_, fun _ => hends, fun h => absurd hmay h⟩
    intro runs _ hruns hunlisted
    exact (hends.escapes _).mpr (ownId_of_unlisted hruns hunlisted _ _ site)
  · refine ⟨fun m => iff_of_false ?_ fun h => hnot h.1, fun _ h => absurd h hnot, fun h => absurd h hnot,
      fun _ => hresult⟩
    rw [hresult]
    exact nofun

def memberArguments : Arguments where
  uses := [("--pr-number", ["7"]), ("--repo", ["o/r"]), ("--event-action", ["opened"]), ("--labels", [""]),
    ("--author-association", ["MEMBER"]), ("--author-login", ["ann"]), ("--head-sha", ["0123abcd"]),
    ("--check-name", ["gate"]), ("--delay", ["0"]), ("--retries", ["1"]), ("--polling-interval", ["0"]),
    ("--ignore-checks", [""]), ("--output-dir", ["payload"])]

def memberWords : List String := memberArguments.uses.flatMap fun e => e.1 :: e.2

def unlistedWorld : World where
  replies :=
    [{ output := "\x7b\"check_runs\":[\x7b\"id\":8,\"name\":\"build\",\"status\":\"queued\"\x7d]\x7d" }]

lemma memberArguments_read :
    (CommandLine.read gateArguments memberWords [] rootSite unlistedWorld).1 = .ok memberArguments ∧
      resetFor memberArguments rootSite unlistedWorld = (.ok (), unlistedWorld) := ⟨rfl, rfl⟩

lemma command_memberWords :
    (command memberWords rootSite unlistedWorld).1 = .error (missing "gate") := by
  decide +kernel

theorem command_outcome_unlisted : IsAdmitted memberArguments ∧
    (ownFor memberArguments rootSite unlistedWorld).1 = .error (missing "gate") := by
  obtain ⟨hread, hready⟩ := memberArguments_read
  exact ((command_outcome memberWords rootSite unlistedWorld _ _ hread hready).1 _).mp command_memberWords

/-- That the checks have not passed is not always told by a status. -/
theorem command_unlisted_escapes :
    ¬∀ (words : List String) (site : Site) (w ready : World) (args : Arguments),
      (CommandLine.read gateArguments words [] site w).1 = .ok args →
      resetFor args site w = (.ok (), ready) → ∀ m, (command words site w).1 ≠ .error (.checks m) := by
  intro h
  obtain ⟨hread, hready⟩ := memberArguments_read
  exact h _ _ _ _ _ hread hready _ command_memberWords

end AssetCatalog.Checks
