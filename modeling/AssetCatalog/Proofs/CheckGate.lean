import AssetCatalog.Proofs.CheckRuns
import AssetCatalog.Proofs.CommandLine

/-!
# What passes the gate

The gate leaves a payload only for an admitted pull request, and after a reply in which every run that
counts has passed.
-/

namespace AssetCatalog.Checks

open List

open Run (bind_apply)

variable (args : Arguments)

/-! ## The steps before the payload -/

lemma read_gateArguments (words : List String) (site : Site) (w : World) :
    (CommandLine.read gateArguments words [] site w).2 = w := by
  have hkeeps : ∀ a ∈ gateArguments, CommandLine.Keeps (· = w) a := by
    intro a ha word
    simp only [gateArguments, mem_cons, not_mem_nil, or_false] at ha
    rcases ha with rfl | rfl | rfl | rfl | rfl | rfl | rfl | rfl | rfl | rfl | rfl | rfl | rfl <;>
      exact .pure trivial
  exact (CommandLine.read_ensures words hkeeps (forall_mem_nil _) site w rfl).1

lemma resetLabel_ran (repo : String) (number : ℤ) (labels : List String) (site : Site) (w : World) :
    w.Ran (if "ci-passed" ∈ labels then [labelRemoval repo number] else [])
      (resetLabel repo number labels site w).2 := by
  unfold resetLabel
  by_cases hlabel : "ci-passed" ∈ labels
  · have hdiscard (x : Run Reply) : discard x = (fun _ => ()) <$> x := rfl
    rw [if_pos hlabel, if_pos (contains_iff_mem.mpr hlabel), hdiscard, Run.map_apply,
      Run.commandOk_apply]
    by_cases hstatus : (w.reply 0).status = 0
    · rw [if_pos hstatus]
      exact w.ran_asked _
    · rw [if_neg hstatus]
      exact w.ran_asked _
  · rw [if_neg hlabel, if_neg (by simpa using hlabel)]
    exact .refl w

def Identifies (name : String) (reply : Reply) (own : Value) : Prop :=
  ∃ runs run, runs? reply = some runs ∧
    runs.find? (fun run => textField? "name" run = some name) = some run ∧ field? "id" run = some own

lemma idOf_eq_some {name : String} {runs : List Value} {own : Value}
    (h : idOf name runs = .ok (some own)) :
    ∃ run, runs.find? (fun run => textField? "name" run = some name) = some run ∧
      field? "id" run = some own := by
  induction runs with
  | nil => cases h
  | cons run runs ih =>
    obtain ⟨n, hn, h⟩ := except_bind_eq_ok.mp h
    rw [need_eq_ok] at hn
    have hname : textField? "name" run = some name ↔ n.same (.text name) := by
      rw [textField?_eq_some, hn, Option.some.injEq, Value.same_text_right]
    split at h
    · next hsame =>
      obtain ⟨id, hid, h⟩ := except_bind_eq_ok.mp h
      cases h
      exact ⟨run, find?_cons_of_pos (by simpa using hname.mpr hsame), need_eq_ok.mp hid⟩
    · next hsame =>
      obtain ⟨other, hother, hid⟩ := ih h
      refine ⟨other, ?_, hid⟩
      rw [find?_cons_of_neg (by simpa using fun h => hsame (hname.mp h))]
      exact hother

lemma ownId_ran (repo commit name : String) (site : Site) (w : World) :
    w.Ran [runsRequest repo commit] (ownId repo commit name site w).2 ∧
      ∀ own, (ownId repo commit name site w).1 = .ok own → Identifies name (w.reply 0) own := by
  have hran := w.ran_asked (runsRequest repo commit)
  rw [ownId, bind_apply, fetchRuns_apply]
  by_cases hstatus : (w.reply 0).status = 0
  · rw [if_pos hstatus]
    rcases hparse : Json.parse (w.reply 0).output with e | v
    · exact ⟨hran, fun own h => by cases h⟩
    · dsimp only
      rw [bind_apply, Run.ofExcept_apply]
      rcases hlist : runsOf v >>= Value.visits with e | runs
      · exact ⟨hran, fun own h => by cases h⟩
      · dsimp only
        rcases hid : idOf name runs with e | _ | id
        · exact ⟨hran, fun own h => by cases h⟩
        · exact ⟨hran, fun own h => by cases h⟩
        · refine ⟨hran, fun own h => ?_⟩
          cases h
          obtain ⟨run, hfound, hrun⟩ := idOf_eq_some hid
          refine ⟨runs, run, ?_, hfound, hrun⟩
          rw [runs?, if_pos hstatus, hparse]
          exact congrArg Except.toOption hlist
  · rw [if_neg hstatus]
    exact ⟨hran, fun own h => by cases h⟩

/-- Whatever the replies are, a wait makes requests only, and the last reply of one that goes well
lets the commit pass. -/
lemma await_ran (w : Wait) (site : Site) (world : World) :
    ∃ n, world.Ran (List.replicate n (runsRequest w.repo w.commit)) (await w site world).2 ∧
      ((await w site world).1 = .ok () → ∃ last, n = last + 1 ∧
        ∃ runs, runs? (world.reply last) = some runs ∧ IsPassing w.own w.ignored runs) := by
  rcases await_polls w site world with ⟨-, hresult, hran⟩ | ⟨k, -, -, hfirst, hresult, hran⟩
  · exact ⟨_, hran, fun h => nomatch hresult.symm.trans h⟩
  · refine ⟨k + 1, hran, fun h => ⟨k, rfl, isPassing_of_answer ?_⟩⟩
    rw [hresult] at h
    rcases hanswer : answer w (world.reply k) with e | _ | _
    · rw [hanswer] at h
      cases h
    · exact absurd hanswer hfirst
    · rfl

/-! ## The gate -/

def IsAdmitted : Prop :=
  args.textOf "--author-association" "" ∈ ["MEMBER", "OWNER", "COLLABORATOR"] ∨
    args.textOf "--author-login" "" = "dependabot[bot]" ∨ "ok-to-test" ∈ labelsOf args

/-- An earlier pass does not count any more: the commits have changed, and its label is there. -/
def IsOutdated : Prop :=
  args.textOf "--event-action" "" ∈ ["synchronize", "reopened"] ∧ "ci-passed" ∈ labelsOf args
deriving Decidable

lemma mayRunFor_iff : mayRunFor args ↔ IsAdmitted args := by
  simp [mayRunFor, mayRun, IsAdmitted, trustedAssociations, trustedLogins, or_assoc]

def removal : List (List String) :=
  if IsOutdated args then [labelRemoval (args.textOf "--repo" "") (args.intOf "--pr-number" 0)] else []

lemma resetFor_ran (site : Site) (w : World) : w.Ran (removal args) (resetFor args site w).2 := by
  have hran := resetLabel_ran (args.textOf "--repo" "") (args.intOf "--pr-number" 0) (labelsOf args)
    site w
  by_cases hevent : args.textOf "--event-action" "" ∈ ["synchronize", "reopened"]
  · have hreset : resetFor args =
        resetLabel (args.textOf "--repo" "") (args.intOf "--pr-number" 0) (labelsOf args) :=
      if_pos (by simpa using hevent)
    rw [hreset]
    simpa only [removal, IsOutdated, hevent, true_and] using hran
  · have hreset : resetFor args = pure () := if_neg (by simpa using hevent)
    rw [hreset, removal, if_neg fun h : IsOutdated args => hevent h.1]
    exact .refl w

def requestFor : List String :=
  runsRequest (args.textOf "--repo" "") (args.textOf "--head-sha" "")

/-- Either no file is touched, or the payload is left after a reply in which all runs that count
have passed. -/
lemma proceed_cases (site : Site) (w : World) : (proceed args site w).2.tree = w.tree ∨
    ∃ n v own runs, w.Ran (List.replicate (n + 2) (requestFor args)) v ∧
      Identifies (args.textOf "--check-name" "") (w.reply 0) own ∧
      runs? (w.reply (n + 1)) = some runs ∧ IsPassing own (ignoredOf args) runs ∧
      proceed args site w = saveFor args site v := by
  obtain ⟨hown, hidentifies⟩ := ownId_ran (args.textOf "--repo" "") (args.textOf "--head-sha" "")
    (args.textOf "--check-name" "") site w
  rw [proceed, bind_apply]
  rcases hid : ownId (args.textOf "--repo" "") (args.textOf "--head-sha" "")
    (args.textOf "--check-name" "") site w with ⟨e | own, known⟩
  · rw [hid] at hown
    exact .inl hown.tree
  · rw [hid] at hown hidentifies
    obtain ⟨n, hran, hpassed⟩ := await_ran (waitOf args own) site known
    dsimp only
    rw [bind_apply, Run.attempt_apply]
    rcases hawait : await (waitOf args own) site known with ⟨e | _, v⟩
    · left
      rw [hawait] at hran
      have htree : v.tree = w.tree := (hown.trans hran).tree
      cases e with
      | checks m => exact htree
      | _ => exact htree
    · right
      rw [hawait] at hran hpassed
      obtain ⟨last, rfl, runs, hruns, hpassing⟩ := hpassed rfl
      rw [hown.reply, length_singleton, Nat.add_comm] at hruns
      exact ⟨last, v, own, runs, hown.trans hran, hidentifies own rfl, hruns, hpassing, rfl⟩

/-- Whatever the arguments and the replies are, and however the run ends, either no file is touched,
or the payload was written from a world `v` before which these conditions were met: the pull request
is admitted, the last command was the request for its check runs, and in the reply to it all runs
that count have passed; and where an earlier pass is outdated, the first command asked for the
removal of its label. -/
theorem command_saves_only_if (words : List String) (site : Site) (w : World) :
    (command words site w).2.tree = w.tree ∨
    ∃ args commands v own runs, (CommandLine.read gateArguments words [] site w).1 = .ok args ∧
      IsAdmitted args ∧
      w.Ran commands v ∧ commands.getLast? = some (requestFor args) ∧
      runs? (w.reply (commands.length - 1)) = some runs ∧ IsPassing own (ignoredOf args) runs ∧
      Identifies (args.textOf "--check-name" "") (w.reply (removal args).length) own ∧
      (IsOutdated args → commands.head? =
        some (labelRemoval (args.textOf "--repo" "") (args.intOf "--pr-number" 0))) ∧
      command words site w = saveFor args site v := by
  have hread := read_gateArguments words site w
  rw [command, bind_apply]
  rcases hargs : CommandLine.read gateArguments words [] site w with ⟨e | args, start⟩
  · rw [hargs] at hread
    exact .inl (congrArg World.tree hread)
  · rw [hargs] at hread
    obtain rfl : start = w := hread
    have hreset := resetFor_ran args site start
    dsimp only
    rw [bind_apply]
    rcases hlabel : resetFor args site start with ⟨e | _, ready⟩
    · rw [hlabel] at hreset
      exact .inl hreset.tree
    · rw [hlabel] at hreset
      dsimp only
      split
      · next hmay =>
        rcases proceed_cases args site ready with htree |
          ⟨n, v, own, runs, hran, hown, hruns, hpassing, hproceed⟩
        · exact .inl (htree.trans hreset.tree)
        · right
          rw [hreset.reply] at hown hruns
          refine ⟨args, _, v, own, runs, rfl, (mayRunFor_iff args).mp hmay, hreset.trans hran, ?_, ?_,
            hpassing, hown, ?_, hproceed⟩
          · rw [getLast?_append, getLast?_replicate]
            simp
          · rw [length_append, length_replicate, ← hruns]
            rfl
          · intro houtdated
            rw [removal, if_pos houtdated]
            rfl
      · exact .inl hreset.tree

end AssetCatalog.Checks
