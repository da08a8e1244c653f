import AssetCatalog.Proofs.ReadmeSync

/-!
# The section of the authors of a page

It is kept by a run that may write, unless the page is no text or stands in the place of an index.
-/

namespace AssetCatalog

open Text Tree

namespace Tree

lemma textAt_eq_of_meets {t : Tree} {p q : Location} (h : t.meets p q) :
    t.textAt p = t.textAt q := by
  simp only [meets, Option.any_eq_true, decide_eq_true_eq] at h
  obtain ⟨l, hp, hq⟩ := h
  rcases hp' : t.follow [] p with e | l' <;> rw [hp'] at hp <;> cases hp
  rcases hq' : t.follow [] q with e | l' <;> rw [hq'] at hq <;> cases hq
  rw [textAt, textAt, read, read, find, find, hp', hq']

end Tree

namespace Readme

open Run

variable {t : Target} {site : Site} {w w' : World} {x : Texts} {k : Location}

/-- The index that is the last to be written to the place of the page, if one is. -/
def Texts.over? (x : Texts) (t : Target) (home : Path) (tree : Tree) : Option String :=
  let meets (folder : Path) :=
    tree.meets (home.join (folder.below pageName)).names (home.join t.page).names
  if meets t.category then some x.index
  else if t.subcategory.any meets then x.lower else none

/-- What is in the place of the page in the end: an index, or else the page with its section. -/
def Texts.last (x : Texts) (t : Target) (home : Path) (tree : Tree) : String :=
  match x.over? t home tree with
  | some index => String.ofList (unifyNewlines index.toList)
  | none => withCustom x.page ((tree.textAt (home.join t.page).names).bind customPart)

lemma follow_page_parent (hnamed : t.page.names ≠ [])
    (hk : w.tree.follow [] (site.home.join t.page).names = .ok k) :
    ∃ d, w.tree.follow [] (site.home.join t.page.parent).names = .ok d ∧ d ∈ w.tree.folders := by
  rw [← item_parent hnamed, Path.join_item, follow_concat] at hk
  rcases hd : w.tree.follow [] (site.home.join t.page.parent).names with e | d
  · rw [hd] at hk
    cases hk
  · rw [hd] at hk
    rcases hentry : w.tree.entry? d with _ | _ | c <;> simp [Except.bind, hentry] at hk
    exact ⟨d, rfl, (entry?_eq_folder_iff _ _).mp hentry⟩

lemma textAt_page_of_writeAll (hnamed : t.page.names ≠ [])
    (hk : w.tree.follow [] (site.home.join t.page).names = .ok k) (hpage : '\r' ∉ x.page.toList)
    (h : x.writeAll t site w = (.ok (), w')) :
    w'.tree.textAt (site.home.join t.page).names = some (x.last t site.home w.tree) := by
  obtain ⟨d, hd, hfolder⟩ := follow_page_parent hnamed hk
  have hself : w.tree.meets (site.home.join t.page).names (site.home.join t.page).names := by
    simp [meets, hk, Except.toOption]
  rw [textAt_writeTexts (writeAll_eq_ok hd hfolder h) hk, Texts.files, List.foldl_cons, if_pos hself,
    unifyNewlines_eq_self (carriageReturn_notMem_withCustom hpage _ _), String.ofList_toList,
    Texts.last, Texts.over?]
  rw [List.foldl_append, List.foldl_cons, List.foldl_nil]
  split
  · rfl
  · cases t.subcategory with
    | none => rfl
    | some folder =>
      cases x.lower with
      | none =>
        rw [ite_self]
        rfl
      | some text =>
        rw [Option.any_some]
        change (if _ then _ else _) = _
        split <;> rfl

lemma textAt_page_of_not_stale (h : x.stale t site.home w.tree = false) :
    w.tree.textAt (site.home.join t.page).names = some (x.last t site.home w.tree) := by
  obtain ⟨hpage, hlower, hindex⟩ := (stale_eq_false_iff x t site.home w.tree).mp h
  have hread {folder : Path} {text : String}
      (hmeets : w.tree.meets (site.home.join (folder.below pageName)).names
        (site.home.join t.page).names)
      (htext : w.tree.textAt (site.home.join (folder.below pageName)).names = some text) :
      w.tree.textAt (site.home.join t.page).names =
        some (String.ofList (unifyNewlines text.toList)) := by
    rw [unifyNewlines_eq_self (carriageReturn_notMem_textAt htext), String.ofList_toList,
      ← htext, textAt_eq_of_meets hmeets]
  rw [Texts.last, Texts.over?]
  split
  · next hover =>
    split at hover
    · next hmeets =>
      cases hover
      exact hread hmeets hindex
    · split at hover
      · next hmeets =>
        obtain ⟨folder, hsub, hmeets⟩ := (Option.any_eq_true _ _).mp hmeets
        exact hread hmeets (hlower folder hsub _ hover)
      · cases hover
  · exact hpage

/-- After a run that may write, the page is the generated text with the section that its authors had
written in the text that was there; bytes that are no text leave only the generated text, and an index
that belongs in the same place leaves only that index. -/
theorem page_after_update {bs : List UInt8} {changed : Bool} (hnamed : t.page.names ≠ [])
    (hbytes : w.tree.read (site.home.join t.page).names = .ok (.ofBytes bs))
    (h : update t true site w = (.ok changed, w')) :
    ∃ x, (t.texts site w).1 = .ok x ∧ w'.tree.textAt (site.home.join t.page).names =
      some (match x.over? t site.home w.tree, String.fromUTF8? ⟨bs.toArray⟩ with
        | some index, _ => String.ofList (Text.unifyNewlines index.toList)
        | none, none => x.page
        | none, some text =>
          match customPart (String.ofList (Text.unifyNewlines text.toList)) with
          | none => x.page
          | some custom => x.page ++ "\n\n" ++ custom) := by
  obtain ⟨x, hx⟩ := exists_texts_of_update (by rw [h])
  obtain ⟨k, hk, -⟩ := Tree.read_eq_ok hbytes
  have hlast : w'.tree.textAt (site.home.join t.page).names = some (x.last t site.home w.tree) := by
    obtain ⟨v, hv, hupdate⟩ := update_of_texts hx true
    rw [hupdate] at h
    cases hstale : x.stale t site.home w.tree with
    | true =>
      rw [hstale] at h
      obtain ⟨_, v', hwrite, hpure⟩ := bind_eq_ok h
      cases hpure
      rw [← hv] at hk ⊢
      exact textAt_page_of_writeAll hnamed hk (carriageReturn_notMem_page hx) hwrite
    | false =>
      rw [hstale] at h
      cases h
      rw [hv]
      exact textAt_page_of_not_stale hstale
  refine ⟨x, hx, hlast.trans ?_⟩
  rw [Texts.last, Tree.textAt, hbytes, Content.ofBytes]
  rcases x.over? t site.home w.tree with _ | index
  · rcases String.fromUTF8? ⟨bs.toArray⟩ with _ | text
    · rfl
    · change some (withCustom x.page (customPart _)) = _
      dsimp only
      rcases hcustom : customPart (String.ofList (Text.unifyNewlines text.toList)) with _ | custom
      · rfl
      · simp [withCustom, ne_empty_of_customPart hcustom]
  · rfl

def pagedComponent (page : List UInt8) : World where
  tree := { (loneComponent "Loads.").tree with
    files := (["components", "data", "loader", "README.md"], .ofBytes page) ::
      (loneComponent "Loads.").tree.files }

def authored : String := "Old. <!-- custom-content -->\r\nMine."

/-- A section after the mark is kept, with its line ends as line feeds. -/
theorem page_after_update_loader : ∃ text, (update loneTarget true rootSite
        (pagedComponent authored.toUTF8.toList)).2.tree.textAt loneTarget.page.names =
      some (text ++ "\n\n" ++ "<!-- custom-content -->\nMine.") := by
  have hupdate := eq_ok_of_toOption (r := update loneTarget true rootSite
    (pagedComponent authored.toUTF8.toList)) (a := true) (by decide +kernel)
  obtain ⟨x, -, hpage⟩ := page_after_update (by decide) (by rfl) hupdate
  have hover : x.over? loneTarget rootSite.home (pagedComponent authored.toUTF8.toList).tree =
      none := by
    rw [Texts.over?, if_neg (by decide +kernel)]
    rfl
  have htext : String.fromUTF8? ⟨authored.toUTF8.toList.toArray⟩ = some authored := by
    decide +kernel
  have hcustom : customPart (String.ofList (Text.unifyNewlines authored.toList)) =
      some "<!-- custom-content -->\nMine." := by
    decide +kernel
  rw [hover, htext] at hpage
  dsimp only at hpage
  rw [hcustom] at hpage
  exact ⟨x.page, hpage⟩

/-- The bytes of a page with a mark, after one that begins no character. -/
def unreadable : List UInt8 := 233 :: (customMark ++ "\n\nMy notes.\n").toUTF8.toList

/-- A page that is no text loses the section after its mark. -/
theorem page_after_update_unreadable : customMark.toUTF8.toList <:+: unreadable ∧
      (update loneTarget true rootSite (pagedComponent unreadable)).1 = .ok true ∧
      ((update loneTarget true rootSite (pagedComponent unreadable)).2.tree.textAt
        loneTarget.page.names).any (fun text => !Text.contains text customMark) = true := by
  decide +kernel

end Readme

end AssetCatalog
