import AssetCatalog.Generation.Export
import AssetCatalog.Proofs.AssetPlaces

/-!
# Where generations are exported to

The file lies below the export path, in a folder for the flow and one for the time, unless the flow is
named by dots.
-/

namespace AssetCatalog

open List Text Path

namespace Generation

lemma slash_notMem_baseName (path : String) : '/' ∉ (baseName path).toList := by
  unfold baseName
  split
  · next h => exact (cutLast?_eq_some_iff.mp h).2
  · next h => exact cutLast?_eq_none h

lemma withoutExtension_subset (name : String) : (withoutExtension name).toList ⊆ name.toList := by
  unfold withoutExtension
  split
  · next h =>
    split
    · exact Subset.refl _
    · rw [(cutLast?_eq_some_iff.mp h).1]
      exact subset_append_left _ _
  · exact Subset.refl _

lemma isPlainName_exportName (flowId flowPath : String) : IsPlainName (exportName flowId flowPath) := by
  have hslash := toList_replace '/' '_' flowId
  have hback := toList_replace '\\' '_' (replace "/" "_" flowId)
  unfold exportName
  split
  · dsimp only
    split
    · exact ⟨by decide, by decide⟩
    · next hname => exact ⟨hname, fun h => slash_notMem_baseName flowPath (withoutExtension_subset _ h)⟩
  · split
    · next hid =>
      change (replace "/" "_" flowId).toList = _ at hslash
      change (replace "\\" "_" (replace "/" "_" flowId)).toList = _ at hback
      rw [hslash, map_map] at hback
      refine ⟨fun h => hid ?_, fun h => ?_⟩
      · rwa [h, String.toList_empty, eq_comm, map_eq_nil_iff, String.toList_eq_nil_iff] at hback
      · rw [hback, mem_map] at h
        obtain ⟨c, -, h⟩ := h
        by_cases hc : c = '/' <;> grind
    · exact ⟨by decide, by decide⟩

variable {base name time : String}

lemma names_append (b : String) (h : '/' ∉ name.toList) : (ofText (b ++ "/" ++ name)).names =
    (ofText b).names ++ [name].filter isName := by
  have hsplit : split "/" (b ++ "/" ++ name) = split "/" b ++ split "/" name := split_append_sep '/' b name
  have hname : split "/" name = [name] := split_of_notMem '/' name h
  simp only [ofText, hsplit, hname, filter_append]

lemma names_joinText (base : String) (h : '/' ∉ name.toList) : (ofText (joinText base name)).names =
    (ofText base).names ++ [name].filter isName := by
  have hstart : ¬startsWith name "/" := fun hs => h (( isPrefixOf_iff_prefix.mp hs).subset (by decide))
  rw [joinText, if_neg hstart]
  split
  · next hbase =>
    rw [Bool.or_eq_true, decide_eq_true_eq] at hbase
    obtain rfl | hend := hbase
    · have hname : split "/" name = [name] := split_of_notMem '/' name h
      have hnone : (ofText "").names = [] := by decide
      rw [hnone, nil_append, String.empty_append, ofText, hname]
    · obtain ⟨b, hb⟩ := isSuffixOf_iff_suffix.mp hend
      obtain rfl : base = String.ofList b ++ "/" ++ "" := String.toList_injective (by simp [← hb])
      rw [names_append _ (by decide), String.append_empty, names_append _ h]
      simp [isName]
  · exact names_append base h

/-- The file is exported to a folder for the flow and the time below the export path, exactly if the name
of the flow is none that leads elsewhere. -/
theorem exportFile_below (start : List String) (base flowId flowPath : String) (htime : Path.IsStep time) :
    let name := exportName flowId flowPath
    let file := ofText (exportFile (exportFolder base flowId flowPath time))
    let folder := normalNames start (ofText base).names
    (name ≠ "" ∧ '/' ∉ name.toList) ∧
    (normalNames start file.names = folder ++ [name, time, "generated.jsonl"] ↔
      name ≠ "." ∧ name ≠ "..") := by
  have hname := isPlainName_exportName flowId flowPath
  refine ⟨hname, ?_⟩
  rw [exportFile, exportFolder, names_joinText _ (by decide), names_joinText _ htime.1.2,
    names_joinText _ hname.2]
  generalize exportName flowId flowPath = name at hname ⊢
  have htail : [time].filter isName ++ ["generated.jsonl"].filter isName =
      [time, "generated.jsonl"] := by
    have hstep : isName time := by simp [isName, htime.1.1, htime.2.1]
    rw [filter_cons_of_pos hstep]
    rfl
  rw [append_assoc, append_assoc, htail, normalNames_append]
  generalize normalNames start (ofText base).names = folder
  have hplain : ".." ∉ [time, "generated.jsonl"] := by simp [htime.2.2.symm]
  by_cases hdot : name = "."
  · refine iff_of_false (fun hfile => ?_) fun h => h.1 hdot
    subst hdot
    have hlength := congrArg length ((normalNames_of_notMem hplain folder).symm.trans hfile)
    simp at hlength
  have hfilter : [name].filter isName = [name] := by simp [isName, hname.1, hdot]
  rw [hfilter, singleton_append]
  by_cases hdots : name = ".."
  · refine iff_of_false (fun hfile => ?_) fun h => h.2 hdots
    subst hdots
    rw [normalNames, normalNames_of_notMem hplain] at hfile
    have hlength := congrArg length hfile
    simp at hlength
  · rw [normalNames_of_notMem (by simpa [eq_comm] using ⟨hdots, htime.2.2⟩)]
    exact iff_of_true rfl ⟨hdot, hdots⟩

theorem exportFile_below_flow :
    normalNames [] (ofText (exportFile (exportFolder "/mnt/out" "red/qa" "" "20260101"))).names =
      ["mnt", "out", "red_qa", "20260101", "generated.jsonl"] := by
  have hbelow := (exportFile_below [] "/mnt/out" "red/qa" "" (by decide : Path.IsStep "20260101")).2
  exact hbelow.mpr (by decide)

/-- A flow that is named by two dots is exported beside the export path. -/
theorem exportFile_beside :
    normalNames [] (ofText (exportFile (exportFolder "/mnt/out" ".." "" "20260101"))).names =
      ["mnt", "20260101", "generated.jsonl"] := by
  decide

end Generation

end AssetCatalog
