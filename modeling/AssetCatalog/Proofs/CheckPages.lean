import AssetCatalog.Proofs.CheckRuns
import AssetCatalog.Proofs.JsonReading

/-!
# Check runs on several pages

Pages are objects one after the other in one reply. They are read only if there is one.
-/

namespace AssetCatalog.Checks

open Run (rootSite)

variable {runs : List Value}

def pagesReply (pages : List String) : Reply := { output := pages.foldr (· ++ ·) "" }

lemma exists_map_of_listing {v : Value} (h : listing? v = some runs) : ∃ es, v = .map es := by
  cases v with
  | map es => exact ⟨es, rfl⟩
  | _ => cases h

lemma parse_of_runs {page : String} (h : runs? { output := page } = some runs) :
    ∃ es, Json.parse page = .ok (.map es) ∧ listing? (.map es) = some runs := by
  rw [runs?, if_pos rfl] at h
  rcases hparse : Json.parse page with e | v <;> rw [hparse] at h
  · cases h
  · obtain ⟨es, rfl⟩ := exists_map_of_listing h
    exact ⟨es, rfl, h⟩

lemma parse_pages {first second : String} {runs' : List Value} (pages : List String)
    (hfirst : runs? { output := first } = some runs) (hsecond : runs? { output := second } = some runs') :
    Json.parse (pagesReply (first :: second :: pages)).output = .error .json := by
  obtain ⟨es, hfirst, -⟩ := parse_of_runs hfirst
  obtain ⟨es', hsecond, -⟩ := parse_of_runs hsecond
  have hblank := Json.skipSpace_ne_nil_of_parse hsecond
  apply Json.parse_append hfirst
  rw [List.foldr_cons, String.toList_append, Json.skipSpace_append hblank]
  simp [hblank]

/-- Of all the pages of a reply the check runs are read, in their order, exactly if there is one page.
Else the reply is no JSON, and a poll that gets it judges nothing. -/
theorem fetchRuns_pages (repo commit : String) (site : Site) (w : World)
    (pages : List (String × List Value)) (hpages : ∀ p ∈ pages, runs? { output := p.1 } = some p.2)
    (hreply : w.reply 0 = pagesReply (pages.map Prod.fst)) :
    ((fetchRuns repo commit site w).1.toOption.bind listing? = some (pages.flatMap Prod.snd) ↔
      pages.length = 1) ∧
    (pages.length ≠ 1 → (fetchRuns repo commit site w).1 = .error .json ∧
      ∀ wait number, (poll wait number site w).1 = .error .json) := by
  have hfetch : (fetchRuns repo commit site w).1 =
      Json.parse (pagesReply (pages.map Prod.fst)).output := by
    rw [fetchRuns_apply, hreply]
    rfl
  have hpoll (h : Json.parse (pagesReply (pages.map Prod.fst)).output = .error .json) (wait : Wait)
      (number : ℕ) : (poll wait number site w).1 = .error .json := by
    have hstatus : (pagesReply (pages.map Prod.fst)).status = 0 := rfl
    rw [(poll_apply wait number site w).1, hreply, answer, if_pos hstatus, h]
    rfl
  rcases pages with _ | ⟨p, _ | ⟨p', pages⟩⟩
  · exact ⟨iff_of_false (by rw [hfetch]; rintro ⟨⟩) (by simp), fun _ => ⟨hfetch, hpoll rfl⟩⟩
  · obtain ⟨es, hes, hruns⟩ := parse_of_runs (hpages p (by simp))
    have houtput : (pagesReply [p.1]).output = p.1 := String.append_empty
    refine ⟨iff_of_true ?_ rfl, fun h => absurd rfl h⟩
    rw [hfetch, List.map_singleton, houtput, hes, List.flatMap_singleton]
    exact hruns
  · have hparse := parse_pages (pages.map Prod.fst) (hpages p (by simp)) (hpages p' (by simp))
    rw [← List.map_cons, ← List.map_cons] at hparse
    refine ⟨iff_of_false ?_ (by simp), fun _ => ⟨hfetch.trans hparse, hpoll hparse⟩⟩
    rw [hfetch, hparse]
    rintro ⟨⟩

def twoPages : List String :=
  ["\x7b\"check_runs\":[\x7b\"id\":7,\"name\":\"gate\",\"status\":\"queued\"\x7d]\x7d",
    "\x7b\"check_runs\":[\x7b\"id\":8,\"name\":\"build\",\"status\":\"completed\"\x7d]\x7d"]

def listedPages : List (String × List Value) :=
  twoPages.map fun page => (page, (runs? { output := page }).getD [])

def pagedWorld : World where
  replies := [pagesReply (listedPages.map Prod.fst)]

lemma runs_listedPages : ∀ p ∈ listedPages, runs? { output := p.1 } = some p.2 := by
  have hsome : ∀ page ∈ twoPages, (runs? { output := page }).isSome := by decide +kernel
  intro p hp
  obtain ⟨page, hpage, rfl⟩ := List.mem_map.mp hp
  obtain ⟨runs, hruns⟩ := Option.isSome_iff_exists.mp (hsome page hpage)
  simp [hruns]

theorem fetchRuns_twoPages : (fetchRuns "o/r" "0123abcd" rootSite pagedWorld).1 = .error .json :=
  ((fetchRuns_pages "o/r" "0123abcd" rootSite pagedWorld listedPages runs_listedPages rfl).2
    (by decide)).1

/-- The check runs of two pages are not read. -/
theorem fetchRuns_loses_pages : (∀ p ∈ listedPages, runs? { output := p.1 } = some p.2) ∧
    pagedWorld.reply 0 = pagesReply (listedPages.map Prod.fst) ∧
    (fetchRuns "o/r" "0123abcd" rootSite pagedWorld).1.toOption.bind listing? = none := by
  have hnone : (fetchRuns "o/r" "0123abcd" rootSite pagedWorld).1.toOption.isNone := by decide +kernel
  refine ⟨runs_listedPages, rfl, ?_⟩
  rw [Option.isNone_iff_eq_none.mp hnone]
  rfl

end AssetCatalog.Checks
