import AssetCatalog.Proofs.ReadmeTexts

/-!
# Pages that stay up to date

After an update a comparison finds nothing to do, exactly if the page has no mark of its own and the
indexes have no carriage return.
-/

namespace AssetCatalog

open List

variable {p : Location} {page : String} {component pipeline : Option Path} {home : Path}

namespace Tree

variable {t u : Tree}

/-- The text of the file that a path leads to, as it is read. -/
def textAt (t : Tree) (p : Location) : Option String :=
  ((t.read p).bind Content.lineText).toOption

lemma textAt_eq {t : Tree} {l : Location} (hl : t.follow [] p = .ok l) : t.textAt p =
      if l ∈ t.folders then none
      else (t.files.lookup l).bind fun c => c.lineText.toOption := by
  by_cases hfolder : l ∈ t.folders
  · have hentry := (entry?_eq_folder_iff t l).mpr hfolder
    simp [textAt, read, find, hl, hentry, hfolder, Except.bind,
      Except.toOption, throw, throwThe, MonadExceptOf.throw]
  · rcases hlookup : t.files.lookup l with _ | c
    · simp [textAt, read, find, hl, entry?, hlookup, hfolder, bind, Except.bind, Except.toOption,
        throw, throwThe, MonadExceptOf.throw]
    · simp [textAt, read, find, hl, entry?, hlookup, hfolder, Except.bind, pure,
        Except.pure]

lemma carriageReturn_notMem_textAt {t : Tree} {s : String}
    (h : t.textAt p = some s) : '\r' ∉ s.toList := by
  rw [textAt] at h
  rcases hr : t.read p with e | c
  · rw [hr] at h
    cases h
  · rw [hr] at h
    cases c with
    | text raw =>
      cases h
      simpa using Text.carriageReturn_notMem_unifyNewlines raw.toList
    | bytes bs => cases h

def meets (t : Tree) (p q : Location) : Bool :=
  (t.follow [] p).toOption.any fun l => (t.follow [] q).toOption = some l

lemma meets_of_folders_eq (h : u.folders = t.folders) (p q : Location) :
    u.meets p q = t.meets p q := by
  have hfollow (r : Location) : (u.follow [] r).toOption = (t.follow [] r).toOption := by
    rcases ht : t.follow [] r with e | l
    · rcases hu : u.follow [] r with e' | l
      · rfl
      · cases ht.symm.trans (follow_of_folders_eq h.symm hu)
    · rw [follow_of_folders_eq h ht]
  simp only [meets, hfollow]

lemma textAt_of_write {q k : Location} {s : String} (h : t.write p (.text s) = .ok u)
    (hq : t.follow [] q = .ok k) :
    u.textAt q = if t.meets p q then some (String.ofList (Text.unifyNewlines s.toList))
      else t.textAt q := by
  obtain ⟨l, hl, hfolder, rfl⟩ := write_eq_ok h
  rw [textAt_eq hq, textAt_eq (follow_of_folders_eq (by rfl) hq), lookup_putFile]
  by_cases hk : k = l
  · simp [meets, hl, hq, hk, hfolder, Content.lineText, pure, Except.pure, Except.toOption]
  · simp [meets, hl, hq, hk, Except.toOption]

/-- Texts that are written one after the other, each to its place. -/
def writeTexts (t : Tree) (files : List (Location × String)) : Except Fault Tree :=
  files.foldlM (fun t f => t.write f.1 (.text f.2)) t

lemma textAt_writeTexts {files : List (Location × String)} {q k : Location}
    (h : t.writeTexts files = .ok u) (hq : t.follow [] q = .ok k) :
    u.textAt q = files.foldl (fun text f => if t.meets f.1 q then
      some (String.ofList (Text.unifyNewlines f.2.toList)) else text) (t.textAt q) := by
  induction files generalizing t with
  | nil =>
    cases h
    rfl
  | cons f files ih =>
    obtain ⟨v, hv, h⟩ := except_bind_eq_ok.mp h
    obtain ⟨_, _, _, hv'⟩ := write_eq_ok hv
    have hfolders : v.folders = t.folders := by rw [hv']
    rw [ih h (follow_of_folders_eq hfolders hq), textAt_of_write hv hq, foldl_cons]
    simp only [meets_of_folders_eq hfolders]

lemma SameBut.of_writeTexts {files : List (Location × String)} {n : String}
    (h : t.writeTexts files = .ok u) (hfiles : ∀ f ∈ files, ∃ d, t.follow [] f.1 = .ok (d ++ [n])) :
    t.SameBut n u := by
  induction files generalizing t with
  | nil =>
    cases h
    exact .refl n _
  | cons f files ih =>
    obtain ⟨v, hv, h⟩ := except_bind_eq_ok.mp h
    obtain ⟨⟨d, hd⟩, hfiles⟩ := forall_mem_cons.mp hfiles
    have hsame := SameBut.of_write hd hv
    exact hsame.trans (ih h fun f hf => (hfiles f hf).imp fun _ => follow_of_folders_eq hsame.folders)

end Tree

/-- A path that ends by going down: it has a name, and neither of its last two leads back. -/
structure Path.Descends (p : Path) : Prop where
  named : p.names ≠ []
  last : p.name ≠ ".."
  before : p.parent.name ≠ ".."

namespace Readme

open Run

variable {changed : Bool} {d : Location} {site : Site} {tree : Tree} {t : Target} {w w' : World}
variable {x : Texts}

section Reading

variable (file : Path) (site : Site) (tree : Tree)

lemma textAt_of_not_exists {t : Tree} (h : t.exists? p = false) : t.textAt p = none := by
  rw [Tree.exists?, Bool.or_eq_false_iff] at h
  rw [Tree.textAt, Tree.read]
  rcases hf : t.find p with e | (c | _)
  · rfl
  · simp [Tree.isFile, hf] at h
  · rfl

lemma look_gives (see : String → Option String) (message : String) : Gives (do
      if ← exists? file then
        match ← attempt (readText file) with
        | .ok text => pure (see text)
        | .error _ =>
          log .warning message
          pure none
      else pure none) site tree ((tree.textAt (site.home.join file).names).bind see) := by
  have hthere : Gives (exists? file) site tree (tree.exists? (site.home.join file).names) := by
    rintro w rfl
    exact ⟨w, by simp, rfl⟩
  have hread : Gives (attempt (readText file)) site tree
      ((tree.read (site.home.join file).names).bind Content.lineText) := by
    rintro w rfl
    exact ⟨w, by rw [attempt_apply, readText_apply], rfl⟩
  refine hthere.bind ?_
  cases hexists : tree.exists? (site.home.join file).names with
  | false =>
    rw [textAt_of_not_exists hexists]
    exact .pure none site tree
  | true =>
    refine hread.bind ?_
    rw [Tree.textAt]
    cases (tree.read (site.home.join file).names).bind Content.lineText with
    | ok text => exact .pure (see text) site tree
    | error e => exact fun w hw => ⟨_, rfl, hw⟩

lemma currentText_gives :
    Gives (currentText file) site tree (tree.textAt (site.home.join file).names) := by
  have h := look_gives file site tree some s!"Error reading {file.text}"
  rwa [Option.bind_fun_some] at h

lemma customContent_gives :
    Gives (customContent file) site tree ((tree.textAt (site.home.join file).names).bind customPart) :=
  look_gives file site tree customPart _

lemma differs_gives (expected : String) : Gives (differs file expected) site tree
      (decide (tree.textAt (site.home.join file).names ≠ some expected)) := by
  refine (currentText_gives file site tree).bind ?_
  by_cases h : tree.textAt (site.home.join file).names = some expected
  · rw [if_pos h, decide_eq_false (not_not.mpr h)]
    exact .pure false site tree
  · rw [if_neg h, decide_eq_true h]
    exact fun w hw => ⟨_, rfl, hw⟩

end Reading

section Custom

variable {custom text : String}

lemma customPart_eq_some (h : customPart text = some custom) :
    ∃ before after, Text.cutList? customMark.toList text.toList = some (before, after) ∧
      custom.toList = customMark.toList ++ after ∧ text.toList = before ++ custom.toList := by
  rw [customPart, Text.cut?, Option.map_map] at h
  obtain ⟨⟨before, after⟩, hcut, rfl⟩ := Option.map_eq_some_iff.mp h
  refine ⟨before, after, hcut, by simp, ?_⟩
  rw [Text.append_of_cutList? hcut]
  simp

lemma customPart_eq_none_iff (text : String) :
    customPart text = none ↔ Text.contains text customMark = false := by
  simp [customPart, Text.cut?, Text.contains, Text.occursIn_eq_false_iff]

lemma carriageReturn_notMem_customPart (h : customPart text = some custom)
    (htext : '\r' ∉ text.toList) : '\r' ∉ custom.toList := by
  obtain ⟨_, _, _, _, hend⟩ := customPart_eq_some h
  rw [hend] at htext
  exact fun hin => htext (mem_append_right _ hin)

lemma ne_empty_of_customPart (h : customPart text = some custom) : custom ≠ "" := by
  obtain ⟨_, _, _, hstart, _⟩ := customPart_eq_some h
  rintro rfl
  simp [customMark] at hstart

lemma withCustom_some (h : custom ≠ "") :
    (withCustom page (some custom)).toList = page.toList ++ '\n' :: '\n' :: custom.toList := by
  simp [withCustom, h]

lemma exists_withCustom_eq (page : String) (custom : Option String) :
    ∃ rest, (withCustom page custom).toList = page.toList ++ rest := by
  rcases custom with _ | custom
  · exact ⟨[], by simp [withCustom]⟩
  · by_cases h : custom = ""
    · exact ⟨[], by simp [withCustom, h]⟩
    · exact ⟨_, withCustom_some h⟩

/-- A page with a mark in its generated part grows each time it is put together again. -/
lemma withCustom_ne_of_mark (custom : Option String)
    (hpage : Text.contains page customMark) :
    withCustom page (customPart (withCustom page custom)) ≠ withCustom page custom := by
  obtain ⟨rest, hrest⟩ := exists_withCustom_eq page custom
  rcases hcut : customPart page with _ | own
  · rw [(customPart_eq_none_iff page).mp hcut] at hpage
    cases hpage
  · obtain ⟨before, after, hcut, _, _⟩ := customPart_eq_some hcut
    have hagain : customPart (withCustom page custom) =
        some (customMark ++ String.ofList (after ++ rest)) := by
      rw [customPart, Text.cut?, hrest,
        Text.cutList?_append_of_eq_some hcut (by simp [customMark]) rest]
      rfl
    have hne := ne_empty_of_customPart hagain
    intro h
    rw [hagain] at h
    have hlen := congrArg (fun s : String => s.toList.length) h
    simp only [withCustom_some hne, hrest, length_append, length_cons,
      String.toList_append, String.toList_ofList] at hlen
    omega

lemma customPart_withCustom (text : String)
    (hpage : Text.contains page customMark = false) :
    customPart (withCustom page (customPart text)) = customPart text := by
  rcases hcustom : customPart text with _ | custom
  · exact (customPart_eq_none_iff page).mpr hpage
  · obtain ⟨_, after, _, hstart, _⟩ := customPart_eq_some hcustom
    have hcut : Text.cutList? customMark.toList
        (withCustom page (some custom)).toList = some (page.toList ++ ['\n', '\n'], after) := by
      rw [withCustom_some (ne_empty_of_customPart hcustom), hstart,
        Text.cutList?_append_of_notMem hpage (by decide),
        ← nil_append ('\n' :: (customMark.toList ++ after)),
        Text.cutList?_append_of_notMem (by decide) (by decide),
        Text.cutList?_self_append (by decide)]
      rfl
    rw [customPart, Text.cut?, hcut]
    simp only [Option.map_some, Option.some.injEq]
    apply String.toList_inj.mp
    rw [hstart, String.toList_append, String.toList_ofList]

lemma withCustom_eq_iff (page text : String) :
    withCustom page (customPart (withCustom page (customPart text))) =
        withCustom page (customPart text) ↔
      Text.contains page customMark = false := by
  constructor
  · intro h
    by_contra hpage
    exact withCustom_ne_of_mark _ (Bool.eq_true_of_not_eq_false hpage) h
  · intro hpage
    rw [customPart_withCustom text hpage]

end Custom

/-- The page of an asset has no carriage return: its lines are cut at every line end and joined. -/
lemma generatePage_ensures (d : Description) (source : Path) :
    Ensures (fun _ => True) (generatePage d source) fun text => '\r' ∉ text.toList := by
  refine .bind (.any _) fun features _ => .bind (.any _) fun page _ => ?_
  apply Ensures.ofExcept
  intro text htext hreturn
  rw [Page.render] at htext
  rcases hpieces : page.pieces with e | pieces
  · rw [hpieces] at htext
    cases htext
  · rw [hpieces] at htext
    cases htext
    rcases Text.mem_toList_join hreturn with h | ⟨line, hline, h⟩
    · exact absurd h (by decide)
    · obtain ⟨raw, hraw, rfl⟩ := mem_map.mp hline
      have hin : '\r' ∈ raw.toList := by
        rw [Text.trimEnd, String.toList_ofList, mem_reverse] at h
        exact mem_reverse.mp ((dropWhile_sublist _).mem h)
      exact absurd (Text.isLineEnd_of_mem_lines hraw hin) (by decide)

/-- What a run generates: the page, the index of the subcategory, if there is one, and the index of
the category. -/
structure Texts where
  page : String
  lower : Option String
  index : String
deriving DecidableEq

def Texts.indexes (x : Texts) : List String := x.lower.toList ++ [x.index]

def Target.texts (t : Target) : Run Texts := do
  let source := t.source.below (sourceName t.isComponent)
  match ← findFunction source (typeOf t.isComponent) with
  | none => throw (.exit 2)
  | some function =>
    match ← extractInterface source function with
    | none => throw (.exit 2)
    | some i =>
      let page ← generatePage i.description t.source
      let lower ← t.subcategory.mapM fun folder => subcategoryIndex folder t.isComponent
      let index ← categoryIndex t.category t.isComponent
      pure { page, lower, index }

lemma lower_overlooks (folder : Option Path) (b : Bool) :
    Overlooks pageName (folder.mapM fun folder => subcategoryIndex folder b) := by
  cases folder with
  | none => exact .pure none
  | some folder => exact (subcategoryIndex_overlooks b folder).map

lemma texts_overlooks (t : Target) : Overlooks pageName t.texts := by
  apply (findFunction_overlooks t.isComponent t.source _).bind
  intro function
  cases function with
  | none => exact .throw _
  | some function =>
    apply (extractInterface_overlooks t.isComponent t.source function).bind
    intro i
    cases i with
    | none => exact .throw _
    | some i =>
      exact (generatePage_overlooks _ _).bind fun _ => (lower_overlooks _ _).bind fun _ =>
        (categoryIndex_overlooks _ _).bind fun _ => .pure _

def Texts.stale (x : Texts) (t : Target) (home : Path) (tree : Tree) : Bool :=
  let now (p : Path) := tree.textAt (home.join p).names
  decide (now t.page ≠ some (withCustom x.page ((now t.page).bind customPart))) ||
    (t.subcategory.bind fun folder => x.lower.map fun text =>
      decide (now (folder.below "README.md") ≠ some text)).getD false ||
    decide (now (t.category.below "README.md") ≠ some x.index)

def Texts.writeAll (x : Texts) (t : Target) : Run Unit := do
  writePage t.page x.page
  match t.subcategory, x.lower with
  | some folder, some text => writeIndex (folder.below "README.md") text "Subcategory index"
  | _, _ => pure ()
  writeIndex (t.category.below "README.md") x.index "Category index"

/-- The indexes of a subcategory that are generated from a tree. -/
def Lower (t : Target) (site : Site) (tree : Tree) (lower : Option String) : Prop :=
  Option.Rel (fun folder text => Gives (subcategoryIndex folder t.isComponent) site tree text)
    t.subcategory lower

/-- The steps of generating texts from a tree. -/
structure Steps (t : Target) (site : Site) (tree : Tree) (name : String) (i : Interface)
    (x : Texts) : Prop where
  function : Gives (findFunction (t.source.below (sourceName t.isComponent))
    (typeOf t.isComponent)) site tree (some name)
  interface : Gives (extractInterface (t.source.below (sourceName t.isComponent)) name) site tree
    (some i)
  page : Gives (generatePage i.description t.source) site tree x.page
  lower : Lower t site tree x.lower
  index : Gives (categoryIndex t.category t.isComponent) site tree x.index

lemma exists_lower {α β : Type} {g : Path → String → Run α} {f : Option α → Run β} {b : β}
    (hw : w.tree = tree) (h : (((t.subcategory.mapM fun folder => do
      g folder (← subcategoryIndex folder t.isComponent)) >>= f) site w).1 = .ok b) :
    ∃ lower, Lower t site tree lower := by
  unfold Lower
  cases hfolder : t.subcategory with
  | none => exact ⟨none, .none⟩
  | some folder =>
    rw [hfolder, Option.mapM_some, map_eq_pure_bind, bind_assoc, bind_assoc] at h
    obtain ⟨text, _, htext, _, _⟩ := (subcategoryIndex_overlooks _ _).bind_eq_ok hw h
    exact ⟨some text, .some htext⟩

lemma exists_steps (h : (t.texts site w).1 = .ok x) :
    ∃ function i, Steps t site w.tree function i x := by
  obtain ⟨function, v₁, hfunction, ht₁, h⟩ := (findFunction_overlooks _ _ _).bind_eq_ok rfl h
  cases function with
  | none => cases h
  | some function =>
    obtain ⟨i, v₂, hi, ht₂, h⟩ := (extractInterface_overlooks _ _ _).bind_eq_ok ht₁ h
    cases i with
    | none => cases h
    | some i =>
      obtain ⟨page, v₃, hpage, ht₃, h⟩ := (generatePage_overlooks _ _).bind_eq_ok ht₂ h
      obtain ⟨lower, hlower⟩ := exists_lower (g := fun _ => pure) ht₃ (by simpa only [bind_pure] using h)
      obtain ⟨v₄, ht₄, h⟩ := (Gives.mapM_option hlower).bind_eq_ok ht₃ h
      obtain ⟨index, _, hindex, _, h⟩ := (categoryIndex_overlooks _ _).bind_eq_ok ht₄ h
      cases h
      exact ⟨function, i, hfunction, hi, hpage, hlower, hindex⟩

lemma Steps.texts {function : String} {i : Interface} {x : Texts}
    (h : Steps t site w.tree function i x) : (t.texts site w).1 = .ok x := by
  apply Gives.ok
  refine h.function.bind (h.interface.bind (h.page.bind ?_))
  exact (Gives.mapM_option h.lower).bind (h.index.bind (.pure x site w.tree))

lemma Lower.gives {lower : Option String} (h : Lower t site tree lower) :
    Gives (t.subcategory.mapM fun folder => do
        let text ← subcategoryIndex folder t.isComponent
        let file := folder.below "README.md"
        pure (file, text, ← differs file text)) site tree
      (t.subcategory.bind fun folder => lower.map fun text =>
        (folder.below "README.md", text,
          decide (tree.textAt (site.home.join (folder.below "README.md")).names ≠ some text))) := by
  apply Gives.mapM_option
  unfold Lower at h
  generalize t.subcategory = o at h ⊢
  cases h with
  | none => exact .none
  | some htext => exact .some (htext.bind ((differs_gives _ site tree _).bind (.pure _ site tree)))

lemma carriageReturn_notMem_page (h : (t.texts site w).1 = .ok x) : '\r' ∉ x.page.toList := by
  obtain ⟨_, _, hsteps⟩ := exists_steps h
  exact (generatePage_ensures _ _ site w trivial).2 _ hsteps.page.ok

/-- A run compares what it generates with what is there, and writes it if it is asked to and
something differs. -/
lemma update_of_texts (h : (t.texts site w).1 = .ok x) (fix : Bool) :
    ∃ v, v.tree = w.tree ∧ update t fix site w = (do
      if x.stale t site.home w.tree && fix then x.writeAll t
      pure (x.stale t site.home w.tree)) site v := by
  obtain ⟨function, i, hsteps⟩ := exists_steps h
  suffices hends : EndsAs (update t fix) _ site w.tree from hends w rfl
  refine hsteps.function.endsAs_bind (hsteps.interface.endsAs_bind (hsteps.page.endsAs_bind ?_))
  refine (customContent_gives t.page site w.tree).endsAs_bind ?_
  refine (differs_gives t.page site w.tree _).endsAs_bind ?_
  refine hsteps.lower.gives.endsAs_bind (hsteps.index.endsAs_bind ?_)
  refine (differs_gives _ site w.tree _).endsAs_bind ?_
  cases hsub : t.subcategory <;> cases hlow : x.lower <;>
    simp only [Texts.stale, Texts.writeAll, hsub, hlow,
      Option.map_none, Option.map_some, bind_assoc] <;>
    exact .refl _ _ _

lemma exists_texts_of_update {fix : Bool} (h : (update t fix site w).1 = .ok changed) :
    ∃ x, (t.texts site w).1 = .ok x := by
  obtain ⟨function, v₁, hfunction, ht₁, h⟩ := (findFunction_overlooks _ _ _).bind_eq_ok rfl h
  cases function with
  | none => cases h
  | some function =>
    obtain ⟨i, v₂, hi, ht₂, h⟩ := (extractInterface_overlooks _ _ _).bind_eq_ok ht₁ h
    cases i with
    | none => cases h
    | some i =>
      obtain ⟨page, v₃, hpage, ht₃, h⟩ := (generatePage_overlooks _ _).bind_eq_ok ht₂ h
      obtain ⟨v₄, ht₄, h⟩ := (customContent_gives t.page site w.tree).bind_eq_ok ht₃ h
      obtain ⟨v₅, ht₅, h⟩ := (differs_gives t.page site w.tree _).bind_eq_ok ht₄ h
      obtain ⟨lower, hlower⟩ := exists_lower ht₅ h
      obtain ⟨v₆, ht₆, h⟩ := hlower.gives.bind_eq_ok ht₅ h
      obtain ⟨index, _, hindex, _, _⟩ := (categoryIndex_overlooks _ _).bind_eq_ok ht₆ h
      have hsteps : Steps t site w.tree function i ⟨page, lower, index⟩ :=
        ⟨hfunction, hi, hpage, hlower, hindex⟩
      exact ⟨_, hsteps.texts⟩

section Writing

variable {file : Path} {text label : String} {site : Site} {w w' : World}

lemma writeIndex_eq_ok (h : writeIndex file text label site w = (.ok (), w')) :
    w.tree.write (site.home.join file).names (.text text) = .ok w'.tree := by
  have hrest {v : World} (hv : v.tree = w.tree) {f : Except Fault Unit → Run Unit}
      (hok : ∀ u, (f (.ok ()) site u).2.tree = u.tree)
      (herror : ∀ e u, (f (.error e) site u).1 ≠ .ok ())
      (h : (attempt (writeText file text) >>= f) site v = (.ok (), w')) :
      w.tree.write (site.home.join file).names (.text text) = .ok w'.tree := by
    obtain ⟨r, u, hr, h⟩ := bind_eq_ok h
    rw [attempt_apply] at hr
    rcases hwrite : writeText file text site v with ⟨e | a, v'⟩
    · rw [hwrite] at hr
      cases hr
      exact absurd (by rw [h]) (herror e _)
    · rw [hwrite] at hr
      cases hr
      have htree := hok v'
      rw [h] at htree
      rw [← hv, htree]
      exact writeText_eq_ok hwrite
  obtain ⟨there, v, hthere, h⟩ := bind_eq_ok h
  cases hthere
  split at h
  all_goals
    refine hrest ?_ ?_ ?_ h
    · rfl
    · intro u
      rfl
    · intro e u
      rintro ⟨⟩

lemma writePage_eq_ok (hd : w.tree.follow [] (site.home.join file.parent).names = .ok d)
    (hfolder : d ∈ w.tree.folders) (h : writePage file text site w = (.ok (), w')) :
    w.tree.write (site.home.join file).names (.text (withCustom text
      ((w.tree.textAt (site.home.join file).names).bind customPart))) = .ok w'.tree := by
  have hrest {v : World} (hv : v.tree = w.tree) {custom : Option String}
      (h : (do
        Run.makeFolders file.parent
        Run.writeText file (withCustom text custom)
        Run.log .info s!"README.md generated successfully at {file.text}") site v = (.ok (), w')) :
      w.tree.write (site.home.join file).names (.text (withCustom text custom)) = .ok w'.tree := by
    obtain ⟨_, v₁, hmake, h⟩ := bind_eq_ok h
    obtain ⟨_, v₂, hwrite, hlog⟩ := bind_eq_ok h
    simp only [makeFolders, bind_apply, locate_apply, get_apply, hv,
      Tree.makeFolders_of_follow hd hfolder, ofExcept_apply, modify_apply] at hmake
    cases hmake
    have htree := writeText_eq_ok hwrite
    cases hlog
    exact htree
  rw [writePage] at h
  obtain ⟨v, hv, hcustom⟩ := customContent_gives file site w.tree w rfl
  rw [bind_of_eq hv] at h
  split at h
  · obtain ⟨_, v', hlog, h⟩ := bind_eq_ok h
    cases hlog
    exact hrest (by exact hcustom) h
  · exact hrest hcustom h

/-- What a run that writes puts where, in turn. -/
def Texts.files (x : Texts) (t : Target) (home : Path) (tree : Tree) : List (Location × String) :=
  ((home.join t.page).names,
    withCustom x.page ((tree.textAt (home.join t.page).names).bind customPart)) ::
    ((t.subcategory.bind fun folder =>
      x.lower.map ((home.join (folder.below pageName)).names, ·)).toList ++
    [((home.join (t.category.below pageName)).names, x.index)])

lemma writeAll_eq_ok (hd : w.tree.follow [] (site.home.join t.page.parent).names = .ok d)
    (hfolder : d ∈ w.tree.folders) (h : x.writeAll t site w = (.ok (), w')) :
    w.tree.writeTexts (x.files t site.home w.tree) = .ok w'.tree := by
  obtain ⟨_, v, hpage, h⟩ := bind_eq_ok h
  refine except_bind_eq_ok.mpr ⟨v.tree, writePage_eq_ok hd hfolder hpage, ?_⟩
  have hlast {v : World}
      (h : writeIndex (t.category.below "README.md") x.index "Category index" site v = (.ok (), w')) :
      v.tree.writeTexts [((site.home.join (t.category.below pageName)).names, x.index)] = .ok w'.tree :=
    except_bind_eq_ok.mpr ⟨w'.tree, writeIndex_eq_ok h, rfl⟩
  cases hsub : t.subcategory with
  | none =>
    rw [hsub] at h
    exact hlast h
  | some folder =>
    rw [hsub] at h
    cases hlow : x.lower with
    | none =>
      rw [hlow] at h
      exact hlast h
    | some text =>
      rw [hlow] at h
      obtain ⟨_, u, hlower, h⟩ := bind_eq_ok h
      exact except_bind_eq_ok.mpr ⟨u.tree, writeIndex_eq_ok hlower, hlast h⟩

end Writing

section Places

lemma target_eq_ok {site : Site} {w : World} {t : Target}
    (h : (Target.of component pipeline none site w).1 = .ok t) :
    t.page = t.source.below pageName ∧ (t.category, t.subcategory) = foldersAbove t.source := by
  rcases component with _ | p <;> rcases pipeline with _ | q <;> cases h
  · exact ⟨rfl, Prod.mk.eta⟩
  · exact ⟨rfl, Prod.mk.eta⟩

lemma foldersAbove_cases (source : Path) : foldersAbove source = (source.parent, none) ∨
      source.parent.names ≠ [] ∧ foldersAbove source = (source.parent.parent, some source.parent) := by
  rw [foldersAbove]
  split
  · next h =>
    refine .inr ⟨?_, rfl⟩
    intro hnil
    simp [Path.parent, Path.name] at h hnil
    simp [hnil] at h
  · exact .inl rfl

lemma item_parent {p : Path} (h : p.names ≠ []) : p.parent.item p.name = p := by
  obtain ⟨root, names⟩ := p
  simp only [Path.item, Path.parent, Path.name, Path.mk.injEq, true_and]
  rw [getLast?_eq_some_getLast h]
  exact dropLast_append_getLast h

lemma follow_parent {p : Path} (hne : p.names ≠ []) (hup : p.name ≠ "..")
    (hd : tree.follow [] (home.join p).names = .ok d) :
    ∃ d', tree.follow [] (home.join p.parent).names = .ok d' ∧ d' ∈ tree.folders ∧
      d = d' ++ [p.name] := by
  rw [← item_parent hne, Path.join_item] at hd
  exact Tree.follow_concat_eq_ok hup hd

lemma follow_below {folder : Path} (hd : tree.follow [] (home.join folder).names = .ok d)
    (hfolder : d ∈ tree.folders) :
    tree.follow [] (home.join (folder.below pageName)).names = .ok (d ++ [pageName]) := by
  rw [Path.join_below home folder (by decide), Tree.follow_concat, hd]
  simp [Except.bind, (Tree.entry?_eq_folder_iff tree d).mpr hfolder, pageName]

lemma follow_source {t : Target} {site : Site} {w : World} {name : String}
    (h : (findFunction (t.source.below (sourceName t.isComponent))
      (typeOf t.isComponent) site w).1 = .ok (some name)) :
    ∃ d, w.tree.follow [] (site.home.join t.source).names = .ok d ∧ d ∈ w.tree.folders := by
  rw [findFunction, bind_apply, attempt_apply] at h
  rcases hparse : Asset.parseFile (t.source.below (sourceName t.isComponent)) site w with ⟨e | body, v⟩
  · rw [hparse] at h
    cases h
  · obtain ⟨text, v', htext, _⟩ := bind_eq_ok hparse
    rw [readText_apply, Path.join_below _ _ (ofText_sourceName _)] at htext
    have hread := congrArg Prod.fst htext
    rcases hfollow : w.tree.follow [] ((site.home.join t.source).names ++ [sourceName t.isComponent])
      with e | l
    · simp [Tree.read, Tree.find, hfollow, bind, Except.bind] at hread
    · obtain ⟨d, hd, hfolder, _⟩ := Tree.follow_concat_eq_ok (sourceName_ne _).2 hfollow
      exact ⟨d, hd, hfolder⟩

/-- The places of the page of an asset and of the indexes above it; no two are on the same level. -/
structure Places (t : Target) (home : Path) (tree : Tree) (d : Location) : Prop where
  folder : d ∈ tree.folders
  source : tree.follow [] (home.join t.page.parent).names = .ok d
  page : tree.follow [] (home.join t.page).names = .ok (d ++ [pageName])
  lower : ∀ folder ∈ t.subcategory, ∃ e,
    tree.follow [] (home.join (folder.below pageName)).names = .ok (e ++ [pageName]) ∧
      e.length + 1 = d.length
  index : ∃ e, tree.follow [] (home.join (t.category.below pageName)).names =
    .ok (e ++ [pageName]) ∧ e.length + (if t.subcategory.isSome then 2 else 1) = d.length

lemma parent_below (p : Path) : (p.below pageName).parent = p := by
  simp [Path.below, show Path.ofText pageName = ⟨"", [pageName]⟩ by decide, Path.join,
    Path.isAbsolute, Path.parent]

lemma places_of_descends {t : Target} (hpage : t.page = t.source.below pageName)
    (habove : (t.category, t.subcategory) = foldersAbove t.source) (hdown : t.source.Descends)
    (hd : tree.follow [] (home.join t.source).names = .ok d) (hfolder : d ∈ tree.folders) :
    Places t home tree d := by
  obtain ⟨d₁, hd₁, hfolder₁, rfl⟩ := follow_parent hdown.named hdown.last hd
  rcases foldersAbove_cases t.source with hcases | ⟨hne, hcases⟩
  · rw [hcases, Prod.mk.injEq] at habove
    obtain ⟨hcategory, hsubcategory⟩ := habove
    refine ⟨hfolder, by rwa [hpage, parent_below], by rw [hpage]; exact follow_below hd hfolder,
      by simp [hsubcategory], d₁, ?_, by simp [hsubcategory]⟩
    rw [hcategory]
    exact follow_below hd₁ hfolder₁
  · rw [hcases, Prod.mk.injEq] at habove
    obtain ⟨hcategory, hsubcategory⟩ := habove
    obtain ⟨d₂, hd₂, hfolder₂, rfl⟩ := follow_parent hne hdown.before hd₁
    refine ⟨hfolder, by rwa [hpage, parent_below], by rw [hpage]; exact follow_below hd hfolder,
      ?_, d₂, ?_, by simp [hsubcategory]⟩
    · intro folder hin
      rw [hsubcategory, Option.mem_some_iff] at hin
      exact ⟨_, hin ▸ follow_below hd₁ hfolder₁, by simp⟩
    · rw [hcategory]
      exact follow_below hd₂ hfolder₂

end Places

/-- What a run that writes leaves behind: the page with what its authors wrote, and the indexes with
their line ends as line feeds. -/
structure Texts.Written (x : Texts) (t : Target) (home : Path) (before after : Tree) : Prop where
  same : before.SameBut pageName after
  page : after.textAt (home.join t.page).names =
    some (withCustom x.page ((before.textAt (home.join t.page).names).bind customPart))
  lower : ∀ folder ∈ t.subcategory, ∀ text ∈ x.lower,
    after.textAt (home.join (folder.below pageName)).names =
      some (String.ofList (Text.unifyNewlines text.toList))
  index : after.textAt (home.join (t.category.below pageName)).names =
    some (String.ofList (Text.unifyNewlines x.index.toList))

lemma carriageReturn_notMem_withCustom (hpage : '\r' ∉ page.toList) (tree : Tree) (p : Location) :
    '\r' ∉ (withCustom page ((tree.textAt p).bind customPart)).toList := by
  rcases hcustom : (tree.textAt p).bind customPart with _ | custom
  · exact hpage
  · obtain ⟨text, htext, hpart⟩ := Option.bind_eq_some_iff.mp hcustom
    have hreturn := carriageReturn_notMem_customPart hpart (Tree.carriageReturn_notMem_textAt htext)
    rw [withCustom_some (ne_empty_of_customPart hpart)]
    simp [hpage, hreturn]

lemma written_of_writeAll (hplaces : Places t site.home w.tree d)
    (hpage : '\r' ∉ x.page.toList) (h : x.writeAll t site w = (.ok (), w')) :
    x.Written t site.home w.tree w'.tree := by
  have hwrite := writeAll_eq_ok hplaces.source hplaces.folder h
  have hcustom := Text.unifyNewlines_eq_self
    (carriageReturn_notMem_withCustom hpage w.tree (site.home.join t.page).names)
  have hmeets {p q l k : Location} (hp : w.tree.follow [] p = .ok (l ++ [pageName]))
      (hq : w.tree.follow [] q = .ok (k ++ [pageName])) : w.tree.meets p q = decide (l = k) := by
    simp [Tree.meets, hp, hq, Except.toOption, eq_comm]
  obtain ⟨e, he, hlen⟩ := hplaces.index
  refine ⟨.of_writeTexts hwrite ?_, ?_, ?_, ?_⟩
  · intro f hf
    rw [Texts.files, mem_cons, mem_append, mem_singleton, Option.mem_toList] at hf
    rcases hf with rfl | hf | rfl
    · exact ⟨d, hplaces.page⟩
    · obtain ⟨folder, hfolder, htext⟩ := Option.bind_eq_some_iff.mp hf
      obtain ⟨text, -, rfl⟩ := Option.map_eq_some_iff.mp htext
      exact (hplaces.lower folder hfolder).imp fun _ h => h.1
    · exact ⟨e, he⟩
  · have hed : e ≠ d := ne_of_apply_ne length (by split at hlen <;> omega)
    rw [Tree.textAt_writeTexts hwrite hplaces.page, Texts.files, foldl_cons, foldl_append,
      hmeets hplaces.page hplaces.page]
    cases hsub : t.subcategory with
    | none => simp [hmeets he hplaces.page, hed, hcustom]
    | some folder =>
      obtain ⟨e', he', hlen'⟩ := hplaces.lower folder hsub
      have hed' : e' ≠ d := ne_of_apply_ne length (by omega)
      cases hlow : x.lower with
      | none => simp [hmeets he hplaces.page, hed, hcustom]
      | some text => simp [hmeets he hplaces.page, hmeets he' hplaces.page, hed, hed', hcustom]
  · intro folder hsub text hlow
    obtain ⟨e', he', hlen'⟩ := hplaces.lower folder hsub
    rw [Option.mem_def] at hsub hlow
    rw [hsub, Option.isSome_some, if_pos rfl] at hlen
    have hne : e ≠ e' := ne_of_apply_ne length (by omega)
    rw [Tree.textAt_writeTexts hwrite he', Texts.files, foldl_cons, foldl_append, hsub, hlow]
    simp [hmeets he' he', hmeets he he', hne]
  · rw [Tree.textAt_writeTexts hwrite he, Texts.files, foldl_cons, foldl_append]
    simp [hmeets he he]

lemma stale_eq_false_iff (x : Texts) (t : Target) (home : Path) (tree : Tree) :
    x.stale t home tree = false ↔
      tree.textAt (home.join t.page).names =
          some (withCustom x.page ((tree.textAt (home.join t.page).names).bind customPart)) ∧
        (∀ folder ∈ t.subcategory, ∀ text ∈ x.lower,
          tree.textAt (home.join (folder.below pageName)).names = some text) ∧
        tree.textAt (home.join (t.category.below pageName)).names = some x.index := by
  simp only [Texts.stale, Bool.or_eq_false_iff, and_assoc]
  cases hsub : t.subcategory <;> cases hlow : x.lower <;> simp [pageName]

lemma Lower.isSome {lower : Option String} (h : Lower t site tree lower) :
    lower.isSome = t.subcategory.isSome := by
  unfold Lower at h
  generalize t.subcategory = o at h ⊢
  cases h with
  | none => rfl
  | some _ => rfl

lemma Texts.Written.stale_eq_false_iff {before after : Tree}
    (h : x.Written t home before after) (hlower : x.lower.isSome = t.subcategory.isSome) :
    x.stale t home after = false ↔
      Text.contains x.page customMark = false ∧ ∀ s ∈ x.indexes, '\r' ∉ s.toList := by
  have hcustom : ((before.textAt (home.join t.page).names).bind customPart) =
      customPart ((before.textAt (home.join t.page).names).getD "") := by
    cases before.textAt (home.join t.page).names with
    | none => decide
    | some text => rfl
  have hunify (s : String) :
      some (String.ofList (Text.unifyNewlines s.toList)) = some s ↔ '\r' ∉ s.toList := by
    rw [Option.some_inj, ← Text.unifyNewlines_eq_self_iff, ← String.toList_inj,
      String.toList_ofList]
  rw [Readme.stale_eq_false_iff, h.page, h.index, hunify, hcustom, Option.bind_some,
    Option.some_inj, eq_comm, withCustom_eq_iff]
  rw [and_congr_right_iff]
  intro _
  rcases hsub : t.subcategory with _ | folder <;> rcases hlow : x.lower with _ | text
  · simp [Texts.indexes, hlow]
  · simp [hsub, hlow] at hlower
  · simp [hsub, hlow] at hlower
  · have htext := h.lower folder hsub text hlow
    simp only [Option.mem_some_iff, forall_eq', htext, hunify, Texts.indexes, hlow,
      Option.toList_some, mem_append, mem_singleton, forall_eq_or_imp, forall_eq]

lemma written_of_update (hplaces : Places t site.home w.tree d)
    (hx : (t.texts site w).1 = .ok x) (h : update t true site w = (.ok changed, w')) :
    x.Written t site.home w.tree w'.tree := by
  have hpage := carriageReturn_notMem_page hx
  obtain ⟨v, hv, hupdate⟩ := update_of_texts hx true
  rw [hupdate] at h
  cases hstale : x.stale t site.home w.tree with
  | true =>
    rw [hstale] at h
    obtain ⟨_, v', hwrite, hpure⟩ := bind_eq_ok h
    cases hpure
    rw [← hv] at hplaces ⊢
    exact written_of_writeAll hplaces hpage hwrite
  | false =>
    rw [hstale] at h
    cases h
    obtain ⟨hnow, hlower, hindex⟩ := (stale_eq_false_iff x t site.home w.tree).mp hstale
    have hread {p : Location} {s : String} (hs : w.tree.textAt p = some s) :
        w.tree.textAt p = some (String.ofList (Text.unifyNewlines s.toList)) := by
      rw [Text.unifyNewlines_eq_self (Tree.carriageReturn_notMem_textAt hs), String.ofList_toList]
      exact hs
    rw [hv]
    refine ⟨.refl _ _, hnow, ?_, hread hindex⟩
    intro folder hfolder text htext
    exact hread (hlower folder hfolder text htext)

lemma update_of_not_stale (hx : (t.texts site w).1 = .ok x)
    (hstale : x.stale t site.home w.tree = false) (fix : Bool) :
    Gives (update t fix) site w.tree false := by
  intro u hu
  obtain ⟨v, hv, hupdate⟩ := update_of_texts ((texts_overlooks t).ok (.of_eq _ hu) hx) fix
  rw [hu, hstale] at hupdate
  exact ⟨v, hupdate, hv.trans hu⟩

/-- A comparison finds nothing to do, and any number of runs that may write leaves the tree as it
is. -/
structure Settled (t : Target) (site : Site) (w : World) : Prop where
  compared : (update t false site w).1 = .ok false
  stays : ∀ n : Nat, ((fun v => (update t true site v).2)^[n] w).tree = w.tree

lemma settled_iff_not_stale (hx : (t.texts site w).1 = .ok x) :
    Settled t site w ↔ x.stale t site.home w.tree = false := by
  constructor
  · rintro ⟨hcompared, _⟩
    obtain ⟨v, _, hupdate⟩ := update_of_texts hx false
    rw [hupdate, Bool.and_false] at hcompared
    exact Except.ok.inj hcompared
  · intro hstale
    exact ⟨(update_of_not_stale hx hstale false).ok,
      Function.Iterate.rec (fun v : World => v.tree = w.tree) rfl fun _ hv =>
        (update_of_not_stale hx hstale true).tree hv⟩

section

variable (ht : (Target.of component pipeline none site w).1 = .ok t) (hdown : t.source.Descends)
  (hfix : update t true site w = (.ok changed, w'))
include ht hdown hfix

/-- After a run that may write, its texts are still the same, and they are in the files exactly if
the page has no mark and the indexes have no carriage return. -/
lemma stale_after_update_iff : ∃ x, (t.texts site w).1 = .ok x ∧ (t.texts site w').1 = .ok x ∧
      (x.stale t site.home w'.tree = false ↔
        Text.contains x.page customMark = false ∧ ∀ s ∈ x.indexes, '\r' ∉ s.toList) := by
  obtain ⟨x, hx⟩ := exists_texts_of_update (by rw [hfix])
  obtain ⟨function, i, hsteps⟩ := exists_steps hx
  obtain ⟨d, hd, hfolder⟩ := follow_source hsteps.function.ok
  obtain ⟨hpage, habove⟩ := target_eq_ok ht
  have hwritten :=
    written_of_update (places_of_descends hpage habove hdown hd hfolder) hx hfix
  exact ⟨x, hx, (texts_overlooks t).ok hwritten.same hx,
    hwritten.stale_eq_false_iff hsteps.lower.isSome⟩

lemma compared_of_mark
    (hmark : (t.texts site w).1.toOption.all (fun x => Text.contains x.page customMark)) :
    (update t false site w').1 = .ok true := by
  obtain ⟨x, hx, hx', hiff⟩ := stale_after_update_iff ht hdown hfix
  rw [hx, Except.toOption, Option.all_some] at hmark
  have hstale : x.stale t site.home w'.tree := by
    rw [← Bool.not_eq_false, hiff, hmark]
    simp
  obtain ⟨v, _, hcompared⟩ := update_of_texts hx' false
  rw [hcompared, hstale]
  rfl

end

/-- After a run that brings the files of an asset up to date, they are settled exactly if the
generated page has no mark and the generated indexes have no carriage return. -/
theorem settled_after_update_iff {component pipeline : Option Path} {t : Target} {site : Site}
    {w w' : World} {changed : Bool} (ht : (Target.of component pipeline none site w).1 = .ok t)
    (hdown : t.source.Descends) (hfix : update t true site w = (.ok changed, w')) :
    ∃ x, (t.texts site w).1 = .ok x ∧
      (Settled t site w' ↔
        Text.contains x.page customMark = false ∧ ∀ s ∈ x.indexes, '\r' ∉ s.toList) := by
  obtain ⟨x, hx, hx', hstale⟩ := stale_after_update_iff ht hdown hfix
  exact ⟨x, hx, (settled_iff_not_stale hx').trans hstale⟩

def loneComponent (description : String) : World where
  tree :=
    { files :=
        [ (["components", "data", "loader", "component.py"],
            .text ("@component\ndef load():\n  \"" ++ description ++ "\"\n")),
          (["components", "data", "loader", "metadata.yaml"], .text "name: loader\n")]
      folders := [[], ["components"], ["components", "data"], ["components", "data", "loader"]] }

def loneTarget : Target where
  isComponent := true
  source := ⟨"", ["components", "data", "loader"]⟩
  page := ⟨"", ["components", "data", "loader", "README.md"]⟩
  category := ⟨"", ["components", "data"]⟩
  subcategory := none

lemma loneTarget_of (description : String) :
    (Target.of (some ⟨"", ["components", "data", "loader"]⟩) none none rootSite
      (loneComponent description)).1 = .ok loneTarget := rfl

lemma loneTarget_descends : loneTarget.source.Descends := by
  constructor <;> decide

theorem settled_after_update_loader :
    Settled loneTarget rootSite (update loneTarget true rootSite (loneComponent "Loads.")).2 := by
  have hupdate := eq_ok_of_toOption (r := update loneTarget true rootSite (loneComponent "Loads."))
    (a := true) (by decide +kernel)
  have htexts : (loneTarget.texts rootSite (loneComponent "Loads.")).1.toOption.all (fun x =>
      !Text.contains x.page customMark && x.indexes.all fun s => !s.toList.contains '\r') = true := by
    decide +kernel
  obtain ⟨x, hx, hsettled⟩ :=
    settled_after_update_iff (loneTarget_of "Loads.") loneTarget_descends hupdate
  rw [hx, Except.toOption, Option.all_some, Bool.and_eq_true, Bool.not_eq_true'] at htexts
  exact hsettled.mpr ⟨htexts.1, by simpa using htexts.2⟩

/-- A mark in a description makes a page that is never up to date. -/
theorem update_marked_loader :
    (update loneTarget true rootSite (loneComponent "Loads. <!-- custom-content -->")).1 =
        .ok true ∧
      (update loneTarget false rootSite (update loneTarget true rootSite
        (loneComponent "Loads. <!-- custom-content -->")).2).1 = .ok true := by
  have hupdate := eq_ok_of_toOption (r := update loneTarget true rootSite
    (loneComponent "Loads. <!-- custom-content -->")) (a := true) (by decide +kernel)
  constructor
  · rw [hupdate]
  · exact compared_of_mark (loneTarget_of _) loneTarget_descends hupdate (by decide +kernel)

end Readme

end AssetCatalog
