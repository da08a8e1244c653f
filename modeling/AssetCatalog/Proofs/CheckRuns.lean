import AssetCatalog.Checks.Gate
import AssetCatalog.Proofs.Run
import AssetCatalog.Proofs.Value

/-!
# Waiting for check runs

The first reply that decides ends the wait, so the outcome is told by the replies alone.
-/

namespace AssetCatalog

open List Value World

open Run (bind_apply bind_of_eq log_apply rootSite)

/-- From `w` to `w'` the commands `cs` were run, each of which took a reply, and no file was
touched. -/
structure World.Ran (w : World) (cs : List (List String)) (w' : World) : Prop where
  tree : w'.tree = w.tree
  commands : w'.commands = w.commands ++ cs
  replies : w'.replies = w.replies.drop cs.length

namespace World.Ran

lemma refl (w : World) : w.Ran [] w := ⟨rfl, by simp, by simp⟩

lemma trans {w v u : World} {cs ds : List (List String)} (h : w.Ran cs v) (h' : v.Ran ds u) :
    w.Ran (cs ++ ds) u where
  tree := h'.tree.trans h.tree
  commands := by rw [h'.commands, h.commands, append_assoc]
  replies := by rw [h'.replies, h.replies, drop_drop, length_append]

lemma of_eq {w v u : World} {cs : List (List String)} (h : w.Ran cs v) (htree : u.tree = v.tree)
    (hcommands : u.commands = v.commands) (hreplies : u.replies = v.replies) : w.Ran cs u where
  tree := htree.trans h.tree
  commands := hcommands.trans h.commands
  replies := hreplies.trans h.replies

end World.Ran

/-- The reply that is the `i`-th to be taken; a command without a reply gets an empty one. -/
def World.reply (w : World) (i : ℕ) : Reply := w.replies[i]?.getD {}

lemma World.Ran.reply {w w' : World} {cs : List (List String)} (h : w.Ran cs w') (i : ℕ) :
    w'.reply i = w.reply (cs.length + i) := by
  rw [World.reply, h.replies, getElem?_drop, World.reply]

def World.asked (w : World) (words : List String) : World :=
  { w with commands := w.commands ++ [words], replies := w.replies.tail }

lemma World.ran_asked (w : World) (words : List String) : w.Ran [words] (w.asked words) :=
  ⟨rfl, rfl, by simp [World.asked]⟩

lemma Run.command_apply (words : List String) (site : Site) (w : World) :
    Run.command words site w = (.ok (w.reply 0), w.asked words) := by
  simp [Run.command, World.reply, World.asked, ← head?_eq_getElem?]

lemma Run.commandOk_apply (words : List String) (site : Site) (w : World) :
    Run.commandOk words site w =
      (if (w.reply 0).status = 0 then .ok (w.reply 0) else .error (.command words (w.reply 0).status),
        w.asked words) := by
  rw [Run.commandOk, bind_of_eq (command_apply words site w)]
  split <;> rfl

namespace Checks

variable {b : Bool} {runs : List Value} {run v reply : Value} {w : Wait} {world : World}
variable (own : Value) (ignored : List String)

/-! ## What a run says -/

/-- What stands under a name, if the value is a mapping. -/
def field? (name : String) : Value → Option Value
  | .map es => named name es
  | _ => none

def textField? (name : String) (v : Value) : Option String :=
  match field? name v with
  | some (.text s) => some s
  | _ => none

def IsOwn (own run : Value) : Prop := (field? "id" run).any (·.same own) = true
deriving Decidable

def IsIgnored (run : Value) : Prop :=
  ∃ name ∈ ignored, textField? "name" run = some name
deriving Decidable

/-- A run that is neither the asking one nor ignored. -/
def IsOther (run : Value) : Prop :=
  ¬IsOwn own run ∧ ¬IsIgnored ignored run
deriving Decidable

def IsCompleted (run : Value) : Prop := textField? "status" run = some "completed"
deriving Decidable

def HasPassed (run : Value) : Prop :=
  ∃ conclusion ∈ passingConclusions, textField? "conclusion" run = some conclusion
deriving Decidable

/-- A run that has the fields the wait looks at: a number, a name, a status and, if any, a
conclusion that can be looked up in a set. -/
@[mk_iff] structure IsRun (run : Value) : Prop where
  id : (field? "id" run).isSome
  name : (textField? "name" run).isSome
  status : (field? "status" run).isSome
  conclusion : ((field? "conclusion" run).getD .null).hashable

instance (run : Value) : Decidable (IsRun run) := decidable_of_iff _ (isRun_iff run).symm

lemma need_eq_ok {name : String} {x : Value} : v.need name = .ok x ↔ field? name v = some x := by
  cases v with
  | map es =>
    rw [need, field?]
    cases named name es <;> simp
  | _ => simp [need, field?]

lemma getOrNull_eq_field {name : String} {x : Value} (h : v.getOrNull name = .ok x) :
    x = (field? name v).getD .null := by
  cases v with
  | map es => simpa [field?, eq_comm] using h
  | _ => cases h

lemma textField?_eq_some {name s : String} :
    textField? name v = some s ↔ field? name v = some (.text s) := by
  rw [textField?]
  split
  · next t h => simp [h]
  · next h =>
    simp only [reduceCtorEq, false_iff]
    exact h s

lemma amongTexts_eq_ok {names : List String} (h : amongTexts names v = .ok b) :
    b ↔ ∃ n ∈ names, v = .text n := by
  unfold amongTexts at h
  split at h
  · cases h
    simp
  · next hv =>
    split at h <;> cases h
    simpa using fun n _ => hv n

lemma exists_amongTexts (h : v.hashable) (names : List String) :
    ∃ b, amongTexts names v = .ok b := by
  unfold amongTexts
  split
  · exact ⟨_, rfl⟩
  · exact ⟨false, by rw [if_pos h]; rfl⟩

lemma counts_eq_ok {own : Value} {ignored : List String} (h : counts own ignored run = .ok b) :
    b ↔ IsOther own ignored run := by
  obtain ⟨id, hid, h⟩ := except_bind_eq_ok.mp h
  rw [need_eq_ok] at hid
  split at h
  · next hown =>
    cases h
    simp [IsOther, IsOwn, hid, hown]
  · next hown =>
    obtain ⟨name, hname, h⟩ := except_bind_eq_ok.mp h
    obtain ⟨skip, hskip, h⟩ := except_bind_eq_ok.mp h
    cases h
    rw [need_eq_ok] at hname
    have hignored : skip ↔ IsIgnored ignored run := by
      rw [amongTexts_eq_ok hskip, IsIgnored]
      simp only [textField?_eq_some, hname, Option.some.injEq]
    simp [IsOther, IsOwn, hid, hown, ← hignored]

lemma exists_counts (h : IsRun run) (own : Value) (ignored : List String) :
    ∃ b, counts own ignored run = .ok b := by
  obtain ⟨id, hid⟩ := Option.isSome_iff_exists.mp h.id
  obtain ⟨name, hname⟩ := Option.isSome_iff_exists.mp h.name
  rw [textField?_eq_some, ← need_eq_ok] at hname
  rw [← need_eq_ok] at hid
  rw [counts, hid, except_ok_bind, hname]
  split
  · exact ⟨false, rfl⟩
  · exact ⟨_, rfl⟩

lemma isPending_eq_ok (h : isPending run = .ok b) : b ↔ ¬IsCompleted run := by
  obtain ⟨status, hstatus, h⟩ := except_bind_eq_ok.mp h
  cases h
  rw [need_eq_ok] at hstatus
  rw [IsCompleted, textField?_eq_some, hstatus, Option.some.injEq, ← same_text_right]
  simp

lemma exists_isPending (h : IsRun run) : ∃ b, isPending run = .ok b := by
  obtain ⟨status, hstatus⟩ := Option.isSome_iff_exists.mp h.status
  rw [← need_eq_ok] at hstatus
  exact ⟨_, by rw [isPending, hstatus]; rfl⟩

lemma isPassing_eq_ok (h : isPassing run = .ok b) : b ↔ HasPassed run := by
  obtain ⟨conclusion, hconclusion, h⟩ := except_bind_eq_ok.mp h
  obtain rfl := getOrNull_eq_field hconclusion
  rw [amongTexts_eq_ok h, HasPassed]
  simp only [textField?_eq_some]
  cases field? "conclusion" run <;> simp

lemma exists_isPassing (h : IsRun run) : ∃ b, isPassing run = .ok b := by
  cases run with
  | map es => exact exists_amongTexts h.conclusion passingConclusions
  | _ => exact absurd h.id (by simp [field?])

/-! ## What a reply says -/

/-- What a reply lists as check runs; nothing if it says nothing of them. -/
def listing? (reply : Value) : Option (List Value) := (runsOf reply >>= visits).toOption

def failing (runs : List Value) : List Value :=
  runs.filter fun run => IsOther own ignored run ∧ ¬HasPassed run

def nameOf (run : Value) : String := (textField? "name" run).getD ""

/-- A reply that decides nothing: it lists no run, or one that counts and has not ended. -/
def IsUndecided (runs : List Value) : Prop :=
  runs = [] ∨ ∃ run ∈ runs, IsOther own ignored run ∧ ¬IsCompleted run
deriving Decidable

/-- A reply that lets a commit pass: it lists runs, and all that count have ended well. -/
def IsPassing (runs : List Value) : Prop :=
  runs ≠ [] ∧ ∀ run ∈ runs, IsOther own ignored run → IsCompleted run ∧ HasPassed run

def HasFailure (runs : List Value) : Prop :=
  ∃ run ∈ runs, IsOther own ignored run ∧ IsCompleted run ∧ ¬HasPassed run
deriving Decidable

/-- What a verdict says of the runs that a reply lists. -/
def Verdict.Fits (runs : List Value) : Verdict → Prop
  | .noRuns | .pending _ => IsUndecided own ignored runs
  | .alone | .passed _ => IsPassing own ignored runs
  | .failed names => ¬IsUndecided own ignored runs ∧ HasFailure own ignored runs ∧
      names = (failing own ignored runs).map nameOf

lemma keep_eq_ok {test : Value → Except Fault Bool} {vs ys : List Value} : keep test vs = .ok ys ↔
      (∀ v ∈ vs, ∃ b, test v = .ok b) ∧ ys = vs.filter fun v => test v = .ok true := by
  induction vs generalizing ys with
  | nil =>
    constructor
    · rintro ⟨⟩
      simp
    · rintro ⟨-, rfl⟩
      rfl
  | cons v vs ih =>
    simp only [keep, except_bind_eq_ok, except_pure_eq_ok, ih, forall_mem_cons]
    constructor
    · rintro ⟨b, hb, rest, ⟨hrest, rfl⟩, rfl⟩
      refine ⟨⟨⟨b, hb⟩, hrest⟩, ?_⟩
      cases b <;> simp [hb]
    · rintro ⟨⟨⟨b, hb⟩, hrest⟩, rfl⟩
      refine ⟨b, hb, _, ⟨hrest, rfl⟩, ?_⟩
      cases b <;> simp [hb]

lemma keep_eq_filter {test : Value → Except Fault Bool} {p : Value → Prop} [DecidablePred p]
    {vs ys : List Value} (h : keep test vs = .ok ys)
    (hp : ∀ v b, test v = .ok b → (b ↔ p v)) : ys = vs.filter p := by
  obtain ⟨hall, rfl⟩ := keep_eq_ok.mp h
  apply filter_congr
  intro v hv
  obtain ⟨b, hb⟩ := hall v hv
  have := hp v b hb
  simp [hb, ← this]

lemma truthy_iff_of_visits {vs : List Value} (h : v.visits = .ok vs) : v.truthy ↔ vs ≠ [] := by
  cases v <;> cases h <;> simp [truthy]

lemma namesOf_eq_ok {names : List String} (h : namesOf runs = .ok names) :
    names = runs.map nameOf := by
  have hforall := mapM_eq_ok.mp h
  induction hforall with
  | nil => rfl
  | @cons run name runs names hname _ ih =>
    obtain ⟨v, hv, hname⟩ := except_bind_eq_ok.mp hname
    obtain rfl : v = .text name := by
      cases v with
      | text s => cases hname; rfl
      | _ => cases hname
    rw [need_eq_ok, ← textField?_eq_some] at hv
    rw [map_cons, nameOf, hv, Option.getD_some, ← ih (mapM_eq_ok.mpr ‹_›)]

lemma exists_namesOf (h : ∀ run ∈ runs, IsRun run) : ∃ names, namesOf runs = .ok names := by
  refine ⟨runs.map nameOf, mapM_eq_ok.mpr ?_⟩
  rw [forall₂_map_right_iff, forall₂_same]
  intro run hrun
  obtain ⟨name, hname⟩ := Option.isSome_iff_exists.mp (h run hrun).name
  rw [nameOf, hname, Option.getD_some]
  rw [textField?_eq_some, ← need_eq_ok] at hname
  rw [hname]
  rfl

lemma listing?_eq_some :
    listing? reply = some runs ↔ ∃ all, runsOf reply = .ok all ∧ all.visits = .ok runs := by
  rw [listing?, ← except_bind_eq_ok]
  cases runsOf reply >>= visits <;> simp [Except.toOption]

lemma not_isUndecided {own : Value} {ignored : List String} (hne : runs ≠ [])
    (h : ∀ run ∈ runs, IsOther own ignored run → IsCompleted run) :
    ¬IsUndecided own ignored runs := by
  rintro (hnil | ⟨run, hrun, hother, hpending⟩)
  · exact hne hnil
  · exact hpending (h run hrun hother)

lemma fits_of_judge {own : Value} {ignored : List String} {verdict : Verdict}
    (h : judge own ignored reply = .ok verdict) :
    ∃ runs, listing? reply = some runs ∧ verdict.Fits own ignored runs := by
  obtain ⟨all, hall, h⟩ := except_bind_eq_ok.mp h
  obtain ⟨runs, hruns, h⟩ := except_bind_eq_ok.mp h
  obtain ⟨others, hothers, h⟩ := except_bind_eq_ok.mp h
  refine ⟨runs, listing?_eq_some.mpr ⟨all, hall, hruns⟩, ?_⟩
  obtain rfl := keep_eq_filter hothers fun _ _ => counts_eq_ok
  split at h
  · next hempty =>
    have hnone : ∀ run ∈ runs, ¬IsOther own ignored run := by simpa using hempty
    cases h
    split
    · next htruthy =>
      exact ⟨(truthy_iff_of_visits hruns).mp htruthy, fun run hrun ho => absurd ho (hnone run hrun)⟩
    · next htruthy =>
      exact .inl (by_contra fun hne => htruthy ((truthy_iff_of_visits hruns).mpr hne))
  · next hsome =>
    have hne : runs ≠ [] := by
      rintro rfl
      exact hsome rfl
    obtain ⟨pending, hpending, h⟩ := except_bind_eq_ok.mp h
    obtain rfl := keep_eq_filter hpending fun _ _ => isPending_eq_ok
    split at h
    · next hlate =>
      obtain ⟨names, -, h⟩ := except_bind_eq_ok.mp h
      cases h
      right
      simpa [and_comm] using hlate
    · next hlate =>
      have hended : ∀ run ∈ runs, IsOther own ignored run → IsCompleted run := by
        simpa [not_imp_not] using hlate
      obtain ⟨failed, hfailed, h⟩ := except_bind_eq_ok.mp h
      have htest (run : Value) (b : Bool)
          (h : (do pure !(← isPassing run) : Except Fault Bool) = .ok b) :
          b ↔ ¬HasPassed run := by
        obtain ⟨passed, hpassed, h⟩ := except_bind_eq_ok.mp h
        cases h
        simp [← isPassing_eq_ok hpassed]
      obtain rfl := keep_eq_filter hfailed htest
      split at h
      · next hwell =>
        cases h
        have hpassed : ∀ run ∈ runs, IsOther own ignored run → HasPassed run := by
          simpa [not_imp_not] using hwell
        exact ⟨hne, fun run hrun hother => ⟨hended run hrun hother, hpassed run hrun hother⟩⟩
      · next hbad =>
        obtain ⟨names, hnames, h⟩ := except_bind_eq_ok.mp h
        cases h
        refine ⟨not_isUndecided hne hended, ?_, ?_⟩
        · obtain ⟨run, hrun, hother, hnot⟩ : ∃ run ∈ runs, IsOther own ignored run ∧ ¬HasPassed run := by
            simpa [and_comm] using hbad
          exact ⟨run, hrun, hother, hended run hrun hother, hnot⟩
        · rw [namesOf_eq_ok hnames, failing]
          simp [Bool.and_comm]

lemma exists_judge (hruns : listing? reply = some runs) (h : ∀ run ∈ runs, IsRun run) :
    ∃ verdict, judge own ignored reply = .ok verdict := by
  obtain ⟨all, hall, hvisits⟩ := listing?_eq_some.mp hruns
  have hkeep {test : Value → Except Fault Bool} (htest : ∀ run, IsRun run → ∃ b, test run = .ok b)
      {vs : List Value} (hvs : ∀ v ∈ vs, IsRun v) : ∃ ys, keep test vs = .ok ys ∧ ∀ v ∈ ys, IsRun v :=
    ⟨_, keep_eq_ok.mpr ⟨fun v hv => htest v (hvs v hv), rfl⟩,
      fun v hv => hvs v (mem_of_mem_filter hv)⟩
  obtain ⟨others, hothers, hisOther⟩ := hkeep (fun run hrun => exists_counts hrun own ignored) h
  obtain ⟨pending, hpending, hisPending⟩ := hkeep (fun run hrun => exists_isPending hrun) hisOther
  have hpassing (run : Value) (hrun : IsRun run) :
      ∃ b, (do pure !(← isPassing run) : Except Fault Bool) = .ok b := by
    obtain ⟨b, hb⟩ := exists_isPassing hrun
    exact ⟨!b, by rw [hb]; rfl⟩
  obtain ⟨failed, hfailed, hisFailed⟩ := hkeep hpassing hisOther
  obtain ⟨late, hlate⟩ := exists_namesOf hisPending
  obtain ⟨bad, hbad⟩ := exists_namesOf hisFailed
  rw [judge, hall, except_ok_bind, hvisits, except_ok_bind, hothers, except_ok_bind]
  split
  · exact ⟨_, rfl⟩
  · rw [hpending, except_ok_bind]
    split
    · exact ⟨_, by rw [hlate]; rfl⟩
    · rw [hfailed, except_ok_bind]
      split
      · exact ⟨_, rfl⟩
      · exact ⟨_, by rw [hbad]; rfl⟩

/-! ## Polling -/

def ranBadly (names : List String) : Fault := .checks ("Check(s) failed: " ++ Text.join ", " names)

def ranOut : Fault := .checks "Checks did not complete within the retry limit"

def runs? (reply : Reply) : Option (List Value) :=
  if reply.status = 0 then (Json.parse reply.output).toOption.bind listing? else none

/-- What a verdict means for the wait: whether it is over, or its failure. -/
def Verdict.answer : Verdict → Except Fault Bool
  | .noRuns | .pending _ => .ok false
  | .alone | .passed _ => .ok true
  | .failed names => .error (ranBadly names)

def answer (w : Wait) (reply : Reply) : Except Fault Bool := do
  if reply.status = 0 then
    let v ← Json.parse reply.output
    let verdict ← judge w.own w.ignored v
    verdict.answer
  else throw (.command (runsRequest w.repo w.commit) reply.status)

lemma fetchRuns_apply (repo commit : String) (site : Site) (w : World) :
    fetchRuns repo commit site w =
      (if (w.reply 0).status = 0 then Json.parse (w.reply 0).output
        else .error (.command (runsRequest repo commit) (w.reply 0).status),
      w.asked (runsRequest repo commit)) := by
  rw [fetchRuns, bind_apply, Run.commandOk_apply]
  by_cases hstatus : (w.reply 0).status = 0
  · rw [if_pos hstatus, if_pos hstatus]
    exact Run.ofExcept_apply site _ _
  · rw [if_neg hstatus, if_neg hstatus]

lemma heed_apply (verdict : Verdict) (site : Site) (w : World) :
    (heed verdict site w).1 = verdict.answer ∧ w.Ran [] (heed verdict site w).2 := by
  cases verdict with
  | failed names => exact ⟨rfl, World.Ran.refl w⟩
  | _ => exact ⟨rfl, (World.Ran.refl w).of_eq rfl rfl rfl⟩

lemma poll_apply (w : Wait) (number : ℕ) (site : Site) (world : World) :
    (poll w number site world).1 = answer w (world.reply 0) ∧
      world.Ran [runsRequest w.repo w.commit] (poll w number site world).2 := by
  obtain ⟨before, hbefore, hpoll⟩ : ∃ before, world.Ran [] before ∧ poll w number site world =
      (fetchRuns w.repo w.commit >>= fun reply =>
        Run.ofExcept (judge w.own w.ignored reply) >>= heed) site before := by
    unfold poll
    split
    · rw [bind_of_eq (Run.pause_apply _ _ _)]
      dsimp only
      refine ⟨_, ?_, rfl⟩
      exact (World.Ran.refl world).of_eq rfl rfl rfl
    · dsimp only
      refine ⟨_, ?_, rfl⟩
      exact (World.Ran.refl world).of_eq rfl rfl rfl
  have hasked : world.Ran [runsRequest w.repo w.commit] (before.asked (runsRequest w.repo w.commit)) :=
    hbefore.trans (before.ran_asked _)
  have hreply : before.reply 0 = world.reply 0 := hbefore.reply 0
  rw [hpoll, bind_apply, fetchRuns_apply, hreply, answer]
  by_cases hstatus : (world.reply 0).status = 0
  · rw [if_pos hstatus, if_pos hstatus]
    rcases hparse : Json.parse (world.reply 0).output with e | v
    · exact ⟨rfl, hasked⟩
    · rw [except_ok_bind]
      dsimp only
      rcases hjudge : judge w.own w.ignored v with e | verdict
      · exact ⟨rfl, hasked⟩
      · obtain ⟨hresult, hran⟩ := heed_apply verdict site _
        exact ⟨hresult, hasked.trans hran⟩
  · rw [if_neg hstatus, if_neg hstatus]
    exact ⟨rfl, hasked⟩

lemma pollFrom_succ (w : Wait) (number left : ℕ) (site : Site) (world : World) :
    pollFrom w number (left + 1) site world =
      match poll w number site world with
      | (.ok true, after) => (.ok (), after)
      | (.ok false, after) => pollFrom w (number + 1) left site after
      | (.error e, after) => (.error e, after) := by
  rw [pollFrom, bind_apply]
  rcases poll w number site world with ⟨e | _ | _, after⟩ <;> rfl

/-- What comes of asking up to `n` times: all replies decide nothing, or one is the first that decides. -/
abbrev Settles (w : Wait) (n : ℕ) (world : World) (r : Except Fault Unit × World) : Prop :=
  let requests (k : ℕ) := List.replicate k (runsRequest w.repo w.commit)
  (∀ i < n, answer w (world.reply i) = .ok false) ∧ r.1 = .error ranOut ∧ world.Ran (requests n) r.2 ∨
  ∃ k < n, (∀ i < k, answer w (world.reply i) = .ok false) ∧ answer w (world.reply k) ≠ .ok false ∧
    r.1 = (answer w (world.reply k)).map (fun _ => ()) ∧ world.Ran (requests (k + 1)) r.2

lemma pollFrom_cases (w : Wait) (number left : ℕ) (site : Site) (world : World) :
    Settles w left world (pollFrom w number left site world) := by
  induction left generalizing number world with
  | zero => exact .inl ⟨by simp, rfl, World.Ran.refl world⟩
  | succ left ih =>
    obtain ⟨hanswer, hran⟩ := poll_apply w number site world
    rw [pollFrom_succ]
    rcases hpoll : poll w number site world with ⟨result, after⟩
    rw [hpoll] at hanswer hran
    have hshift (i : ℕ) : after.reply i = world.reply (i + 1) := by
      rw [hran.reply, length_singleton, Nat.add_comm]
    have hrest := ih (number + 1) after
    simp only [Settles, hshift] at hrest
    rcases result with e | _ | _
    · exact .inr ⟨0, by simp, by simp, by simp [← hanswer], by simp [← hanswer, Except.map], hran⟩
    · have hbefore {n : ℕ} (h : ∀ i < n, answer w (world.reply (i + 1)) = .ok false) :
          ∀ i < n + 1, answer w (world.reply i) = .ok false := by
        rintro (_ | i) hi
        · exact hanswer.symm
        · exact h i (Nat.lt_of_succ_lt_succ hi)
      rcases hrest with ⟨hall, hresult, hlater⟩ | ⟨k, hk, hall, hfirst, hresult, hlater⟩
      · exact .inl ⟨hbefore hall, hresult, hran.trans hlater⟩
      · exact .inr ⟨k + 1, Nat.succ_lt_succ hk, hbefore hall, hfirst, hresult, hran.trans hlater⟩
    · exact .inr ⟨0, by simp, by simp, by simp [← hanswer], by simp [← hanswer, Except.map], hran⟩

lemma await_apply (w : Wait) (site : Site) (world : World) :
    ∃ before, world.Ran [] before ∧ await w site world = pollFrom w 1 w.retries.toNat site before := by
  unfold await
  split
  · rw [bind_of_eq (log_apply _ _ _ _), bind_of_eq (Run.pause_apply _ _ _)]
    refine ⟨_, ?_, rfl⟩
    exact (World.Ran.refl world).of_eq rfl rfl rfl
  · exact ⟨world, World.Ran.refl world, rfl⟩

lemma await_polls (w : Wait) (site : Site) (world : World) :
    Settles w w.retries.toNat world (await w site world) := by
  obtain ⟨before, hran, hawait⟩ := await_apply w site world
  have hreply (i : ℕ) : before.reply i = world.reply i := by
    rw [hran.reply, length_nil, Nat.zero_add]
  have hpolls := pollFrom_cases w 1 w.retries.toNat site before
  simp only [Settles, hreply, ← hawait] at hpolls
  exact hpolls.imp (fun ⟨hall, hresult, hlater⟩ => ⟨hall, hresult, hran.trans hlater⟩)
    fun ⟨k, hk, hall, hfirst, hresult, hlater⟩ => ⟨k, hk, hall, hfirst, hresult, hran.trans hlater⟩

/-! ## The outcome of a wait -/

section Outcome

variable {own : Value} {ignored : List String} {runs : List Value}

lemma not_isUndecided_of_isPassing (h : IsPassing own ignored runs) :
    ¬IsUndecided own ignored runs :=
  not_isUndecided h.1 fun run hrun hother => (h.2 run hrun hother).1

lemma not_hasFailure_of_isPassing (h : IsPassing own ignored runs) :
    ¬HasFailure own ignored runs := by
  rintro ⟨run, hrun, hother, -, hnot⟩
  exact hnot (h.2 run hrun hother).2

lemma isPassing_of_answer {w : Wait} {reply : Reply} (h : answer w reply = .ok true) :
    ∃ runs, runs? reply = some runs ∧ IsPassing w.own w.ignored runs := by
  unfold answer at h
  split at h
  · next hstatus =>
    obtain ⟨v, hv, h⟩ := except_bind_eq_ok.mp h
    obtain ⟨verdict, hverdict, h⟩ := except_bind_eq_ok.mp h
    obtain ⟨runs, hruns, hfits⟩ := fits_of_judge hverdict
    refine ⟨runs, by rw [runs?, if_pos hstatus, hv]; exact hruns, ?_⟩
    cases verdict with
    | alone => exact hfits
    | passed count => exact hfits
    | _ => cases h
  · cases h

lemma answer_of_runs {w : Wait} {reply : Reply} (hruns : runs? reply = some runs)
    (hfields : ∀ run ∈ runs, IsRun run) :
    (IsUndecided w.own w.ignored runs ∧ answer w reply = .ok false) ∨
    (IsPassing w.own w.ignored runs ∧ answer w reply = .ok true) ∨
    (¬IsUndecided w.own w.ignored runs ∧ HasFailure w.own w.ignored runs ∧
      answer w reply = .error (ranBadly ((failing w.own w.ignored runs).map nameOf))) := by
  unfold runs? at hruns
  split at hruns
  · next hstatus =>
    obtain ⟨v, hv, hlist⟩ := Option.bind_eq_some_iff.mp hruns
    rcases hparse : Json.parse reply.output with e | u
    · rw [hparse] at hv
      cases hv
    · obtain rfl : u = v := by simpa [hparse, Except.toOption] using hv
      obtain ⟨verdict, hverdict⟩ := exists_judge w.own w.ignored hlist hfields
      have hanswer : answer w reply = verdict.answer := by
        rw [answer, if_pos hstatus, hparse, except_ok_bind, hverdict, except_ok_bind]
      obtain ⟨runs', hruns', hfits⟩ := fits_of_judge hverdict
      obtain rfl : runs = runs' := Option.some.inj (hlist.symm.trans hruns')
      rw [hanswer]
      cases verdict with
      | noRuns => exact .inl ⟨hfits, rfl⟩
      | pending names => exact .inl ⟨hfits, rfl⟩
      | alone => exact .inr (.inl ⟨hfits, rfl⟩)
      | passed count => exact .inr (.inl ⟨hfits, rfl⟩)
      | failed names =>
        obtain ⟨hdecided, hfailure, rfl⟩ := hfits
        exact .inr (.inr ⟨hdecided, hfailure, rfl⟩)
  · cases hruns

end Outcome

lemma ranBadly_ne_ranOut (names : List String) : ranBadly names ≠ ranOut := by
  intro h
  have htexts := congrArg String.toList (Fault.checks.inj h)
  simp at htexts

lemma first_unique {P : ℕ → Prop} {j k : ℕ} (hj : ∀ i < j, P i) (hj' : ¬P j) (hk : ∀ i < k, P i)
    (hk' : ¬P k) : j = k := by
  rcases Nat.lt_trichotomy j k with hlt | heq | hgt
  · exact absurd (hk j hlt) hj'
  · exact heq
  · exact absurd (hj k hgt) hk'

lemma await_cases (w : Wait) (site : Site) (world : World) (history : ℕ → List Value)
    (hhistory : ∀ i < w.retries.toNat, runs? (world.reply i) = some (history i))
    (hfields : ∀ i < w.retries.toNat, ∀ run ∈ history i, IsRun run) :
    ((∀ i < w.retries.toNat, IsUndecided w.own w.ignored (history i)) ∧
      (await w site world).1 = .error ranOut ∧
      world.Ran (List.replicate w.retries.toNat (runsRequest w.repo w.commit)) (await w site world).2) ∨
    ∃ k < w.retries.toNat, (∀ i < k, IsUndecided w.own w.ignored (history i)) ∧
      ¬IsUndecided w.own w.ignored (history k) ∧
      world.Ran (List.replicate (k + 1) (runsRequest w.repo w.commit)) (await w site world).2 ∧
      (IsPassing w.own w.ignored (history k) ∧ (await w site world).1 = .ok () ∨
        HasFailure w.own w.ignored (history k) ∧ (await w site world).1 =
          .error (ranBadly ((failing w.own w.ignored (history k)).map nameOf))) := by
  have hanswer (i : ℕ) (hi : i < w.retries.toNat) :=
    answer_of_runs (w := w) (hhistory i hi) (hfields i hi)
  have hwaits (i : ℕ) (hi : i < w.retries.toNat) (h : answer w (world.reply i) = .ok false) :
      IsUndecided w.own w.ignored (history i) := by
    rcases hanswer i hi with ⟨h', -⟩ | ⟨-, h'⟩ | ⟨-, -, h'⟩
    · exact h'
    · exact nomatch h'.symm.trans h
    · exact nomatch h'.symm.trans h
  rcases await_polls w site world with ⟨hall, hend⟩ | ⟨k, hk, hall, hfirst, hresult, hran⟩
  · exact .inl ⟨fun i hi => hwaits i hi (hall i hi), hend⟩
  · refine .inr ⟨k, hk, fun i hi => hwaits i (hi.trans hk) (hall i hi), ?_⟩
    rcases hanswer k hk with ⟨-, h⟩ | ⟨hpass, h⟩ | ⟨hdecided, hfailure, h⟩
    · exact absurd h hfirst
    · rw [h] at hresult
      exact ⟨not_isUndecided_of_isPassing hpass, hran, .inl ⟨hpass, hresult⟩⟩
    · rw [h] at hresult
      exact ⟨hdecided, hran, .inr ⟨hfailure, hresult⟩⟩

example : judge (.int 7) [] (.map []) = .ok .noRuns := by decide +kernel

def loneWait : Wait where
  repo := "kubeflow/pipelines-components"
  commit := "0123456789abcdef"
  own := .int 7
  delay := 0
  retries := 3
  interval := 10
  ignored := ["lint"]

/-- Replies of which the first lists nothing, the second has a run that goes on, and the third a
failure beside the asking run and an ignored failure. -/
def failingReplies : World where
  replies :=
    [ { output := "\x7b\x7d" },
      { output := "\x7b\"check_runs\":[\x7b\"id\":8,\"name\":\"build\",\"status\":\"queued\"\x7d]\x7d" },
      { output := "\x7b\"check_runs\":[\x7b\"id\":7,\"name\":\"gate\",\"status\":\"queued\"\x7d," ++
        "\x7b\"id\":8,\"name\":\"build\",\"status\":\"completed\",\"conclusion\":\"failure\"\x7d," ++
        "\x7b\"id\":9,\"name\":\"lint\",\"status\":\"completed\"\x7d]\x7d" } ]

def failingHistory (i : ℕ) : List Value := (runs? (failingReplies.reply i)).getD []

lemma failingHistory_of_any {i : ℕ} {p : List Value → Prop} [DecidablePred p]
    (h : (runs? (failingReplies.reply i)).any (p ·) = true) :
    runs? (failingReplies.reply i) = some (failingHistory i) ∧ p (failingHistory i) := by
  obtain ⟨runs, hruns, hp⟩ := (Option.any_eq_true _ _).mp h
  rw [failingHistory, hruns]
  exact ⟨rfl, of_decide_eq_true hp⟩

set_option maxRecDepth 4000 in
lemma failingReplies_facts :
    ((runs? (failingReplies.reply 0)).any fun runs =>
      (∀ run ∈ runs, IsRun run) ∧ IsUndecided loneWait.own loneWait.ignored runs) = true ∧
    ((runs? (failingReplies.reply 1)).any fun runs =>
      (∀ run ∈ runs, IsRun run) ∧ IsUndecided loneWait.own loneWait.ignored runs) = true ∧
    ((runs? (failingReplies.reply 2)).any fun runs => (∀ run ∈ runs, IsRun run) ∧
      ¬IsUndecided loneWait.own loneWait.ignored runs ∧ HasFailure loneWait.own loneWait.ignored runs ∧
      (failing loneWait.own loneWait.ignored runs).map nameOf = ["build"]) = true := by
  -- with the characters of the replies the kernel has nothing to decode
  have hsecond : (failingReplies.reply 1).output.toList = _ := String.toList_ofList
  have hthird : (failingReplies.reply 2).output.toList = _ :=
    String.toList_append.trans (congrArg₂ (· ++ ·) (String.toList_append.trans
      (congrArg₂ (· ++ ·) String.toList_ofList String.toList_ofList)) String.toList_ofList)
  simp only [runs?, Json.parse, hsecond, hthird]
  decide +kernel

end Checks

end AssetCatalog
