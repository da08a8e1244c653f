import AssetCatalog.Proofs.AssetInterface
import AssetCatalog.Proofs.ReadmeSync
import AssetCatalog.Proofs.TextLines

/-!
# The table of inputs on a page

It is a table exactly if no text of a row has a line end or a bare bar.
-/

namespace AssetCatalog

open List

open Run (bind_eq_ok)

variable {s l : String} {r : Row}

namespace Text

lemma linesFrom_append_feed (a b acc : List Char) :
    linesFrom (a ++ '\n' :: b) acc = linesFrom (a ++ ['\n']) acc ++ linesFrom b [] := by
  fun_induction linesFrom a acc with
  | case1 => simp [linesFrom_feed, linesFrom]
  | case2 acc => simp [linesFrom_feed, linesFrom]
  | case3 cs acc ih => simp only [cons_append, linesFrom, ih]
  | case4 c cs acc hne hc ih =>
    cases cs with
    | nil =>
      by_cases hreturn : c = '\r'
      · subst hreturn
        simp [linesFrom]
      · simp [linesFrom_cons hreturn, hc, linesFrom_feed, linesFrom]
    | cons d cs =>
      have hline (tail : List Char) : linesFrom (c :: d :: cs ++ tail) acc =
          (c :: acc).reverse :: linesFrom (d :: cs ++ tail) [] := by
        rw [cons_append, linesFrom.eq_4, if_pos hc]
        rintro t hreturn ht
        exact hne cs hreturn (by rw [(List.cons.inj ht).1])
      rw [hline, hline, ih]
      rfl
  | case5 c cs acc hne hc ih =>
    rw [cons_append, cons_append, linesFrom_char (by simpa using hc),
      linesFrom_char (by simpa using hc), ih]

lemma lines_append_feed (s t : String) : lines (s ++ "\n" ++ t) = lines (s ++ "\n") ++ lines t := by
  have h := linesFrom_append_feed s.toList t.toList []
  simp only [lines, lineList, ← map_append]
  exact congrArg (List.map _) (by simpa using h)

lemma lines_eq_singleton (hs : s.toList.getLast? ≠ some '\r')
    (h : (lines (s ++ "\n")).length = 1) : lines (s ++ "\n") = [s] := by
  rw [lines, length_map, length_eq_one_iff] at h
  obtain ⟨l, hl⟩ := h
  have hflatten := flatten_lineList (s ++ "\n").toList
  rw [hl, flatten_singleton, String.toList_append] at hflatten
  rw [lines, hl, hflatten, map_singleton]
  rw [← head?_reverse] at hs
  rw [reverse_append, show "\n".toList.reverse = ['\n'] from rfl, singleton_append]
  split
  · next r hr => simp [(List.cons.inj hr).2] at hs
  · next c r _ hr =>
    obtain ⟨rfl, rfl⟩ := List.cons.inj hr
    rw [if_pos (by decide), reverse_reverse, String.ofList_toList]
  · next hr => cases hr

lemma lines_inline (hs : ∀ c ∈ s.toList, isLineEnd c = false) : lines (s ++ "\n") = [s] := by
  refine lines_eq_singleton (fun h => Bool.noConfusion (hs _ (mem_of_getLast? h))) ?_
  rw [lines, length_map, lineList, String.toList_append, linesFrom_inline hs]
  simp [linesFrom]

lemma lines_feed_ne_nil (s : String) : lines (s ++ "\n") ≠ [] := by
  intro h
  have hflatten := flatten_lineList (s ++ "\n").toList
  rw [lines, map_eq_nil_iff] at h
  rw [h] at hflatten
  simp at hflatten

lemma trimEnd_of_getLast? {c : Char} (h : s.toList.getLast? = some c) (hc : isBlank c = false) :
    trimEnd s = s := by
  obtain ⟨cs, hcs⟩ := getLast?_eq_some_iff.mp h
  rw [trimEnd, hcs, reverse_append, reverse_singleton, singleton_append,
    dropWhile_cons_of_neg (by simp [hc]), ← singleton_append, reverse_append,
    reverse_reverse, reverse_singleton, ← hcs, String.ofList_toList]

end Text

namespace Readme

open Text Source

def shown (pieces : List String) : List String :=
  (Text.lines (String.join (pieces.map (· ++ "\n")))).map trimEnd

lemma shown_append (ps qs : List String) : shown (ps ++ qs) = shown ps ++ shown qs := by
  induction ps with
  | nil => rfl
  | cons p ps ih =>
    simp only [shown, cons_append, map_cons, String.join_cons, lines_append_feed,
      map_append, append_assoc] at ih ⊢
    rw [ih]

lemma shown_cons (p : String) (ps : List String) : shown (p :: ps) = shown [p] ++ shown ps :=
  shown_append [p] ps

/-- The characters of a text without the bars that have a backslash in front of them. -/
def unescaped : List Char → List Char
  | '\\' :: '|' :: cs => unescaped cs
  | c :: cs => c :: unescaped cs
  | [] => []

lemma unescaped_append {c : Char} (hc : c ≠ '|') (a b : List Char) :
    unescaped (a ++ c :: b) = unescaped a ++ unescaped (c :: b) := by
  fun_induction unescaped a with
  | case1 cs ih => simpa [unescaped] using ih
  | case2 d cs hne ih =>
    rw [cons_append, unescaped.eq_2, ih, cons_append]
    rintro t hd ht
    cases cs with
    | nil => exact hc (List.cons.inj ht).1
    | cons e cs => exact hne cs hd (by rw [(List.cons.inj ht).1])
  | case3 => rfl

/-- How many cells a line has that starts and ends with a bar. -/
def cellCount (line : String) : Nat := (unescaped line.toList).count '|' - 1

/-- A text that stays within one cell of one line. -/
def FitsCell (s : String) : Prop := (∀ c ∈ s.toList, isLineEnd c = false) ∧ '|' ∉ unescaped s.toList

/-- A row all of whose texts fit their cells. -/
def Row.IsTidy (r : Row) : Prop :=
  FitsCell r.name ∧ (∀ s, r.type.plainText = .ok s → FitsCell s) ∧
    (∀ s, r.defaultCell = .ok s → FitsCell s) ∧ ∀ s, r.description.plainText = .ok s → FitsCell s

lemma Row.isTidy_iff (h : r.line = .ok l) :
    r.IsTidy ↔ (∀ c ∈ l.toList, isLineEnd c = false) ∧ cellCount l = 4 := by
  simp only [Row.line, except_bind_eq_ok, except_pure_eq_ok] at h
  obtain ⟨t, ht, d, hd, s, hs, rfl⟩ := h
  have hline : ("| `" ++ r.name ++ "` | `" ++ t ++ "` | " ++ d ++ " | " ++ s ++ " |").toList =
      '|' :: ' ' :: '`' :: (r.name.toList ++ '`' :: ' ' :: '|' :: ' ' :: '`' :: (t.toList ++
        '`' :: ' ' :: '|' :: ' ' :: (d.toList ++ ' ' :: '|' :: ' ' :: (s.toList ++ [' ', '|'])))) := by
    simp
  have hbars : cellCount ("| `" ++ r.name ++ "` | `" ++ t ++ "` | " ++ d ++ " | " ++ s ++ " |") =
      4 + ([r.name, t, d, s].map fun x => (unescaped x.toList).count '|').sum := by
    rw [cellCount, hline]
    simp [unescaped, unescaped_append]
    omega
  have hplain : isLineEnd '|' = false ∧ isLineEnd ' ' = false ∧ isLineEnd '`' = false := by decide
  rw [hbars, hline]
  simp [IsTidy, FitsCell, ht, hd, hs, count_eq_zero, or_imp, forall_and]
  clear hline hbars
  tauto

lemma Row.startsWith_line (h : r.line = .ok l) :
    startsWith l ("| `" ++ r.name ++ "` |") ∧ l.toList.getLast? = some '|' := by
  simp only [Row.line, except_bind_eq_ok, except_pure_eq_ok] at h
  obtain ⟨t, -, d, -, s, -, rfl⟩ := h
  constructor
  · simp [startsWith]
  · rw [String.toList_append, getLast?_append]
    rfl

/-- A line of a table that shows the parameter of a name. -/
def IsRowOf (name line : String) : Prop := startsWith line ("| `" ++ name ++ "` |") ∧ cellCount line = 4

lemma shown_line (h : r.line = .ok l) (hl : (shown [l]).length = 1) :
    shown [l] = [l] ∧ ∀ c ∈ l.toList, isLineEnd c = false := by
  have hlast := (Row.startsWith_line h).2
  have hlines : lines (l ++ "\n") = [l] := by
    refine lines_eq_singleton (by simp [hlast]) ?_
    simpa [shown] using hl
  refine ⟨by simp [shown, hlines, trimEnd_of_getLast? hlast (by decide)], fun c hc => ?_⟩
  exact isLineEnd_of_mem_lines (by rw [hlines]; exact mem_singleton_self l) hc

lemma shown_ne_nil (l : String) : shown [l] ≠ [] := by
  simpa [shown] using lines_feed_ne_nil l

lemma length_le_length_shown (ls : List String) : ls.length ≤ (shown ls).length := by
  induction ls with
  | nil => exact Nat.zero_le _
  | cons l ls ih =>
    have hl := length_pos_iff.mpr (shown_ne_nil l)
    rw [shown_cons, length_append, length_cons]
    omega

lemma shown_rows_iff {rows : List Row} {ls : List String}
    (h : List.Forall₂ (fun r l => r.line = .ok l) rows ls) :
    List.Forall₂ IsRowOf (rows.map Row.name) (shown ls) ↔ ∀ r ∈ rows, r.IsTidy := by
  induction h with
  | nil => simp [shown, Text.lines, lineList, linesFrom]
  | @cons r l rows ls hr hrows ih =>
    rw [shown_cons, map_cons, forall_mem_cons, ← ih, Row.isTidy_iff hr]
    constructor
    · intro hall
      -- each row gives a line at least, so that this one cannot give more
      have hlength : (shown [l]).length = 1 := by
        have hl := length_pos_iff.mpr (shown_ne_nil l)
        have hls := length_le_length_shown ls
        have hnames := hall.length_eq
        have hrest := hrows.length_eq
        simp only [length_cons, length_map, length_append] at hnames
        omega
      obtain ⟨hshown, hinline⟩ := shown_line hr hlength
      rw [hshown, singleton_append, forall₂_cons] at hall
      exact ⟨⟨hinline, hall.1.2⟩, hall.2⟩
    · rintro ⟨⟨hinline, hcells⟩, hrest⟩
      have hlength : (shown [l]).length = 1 := by
        simp [shown, lines_inline hinline]
      rw [(shown_line hr hlength).1]
      exact .cons ⟨(Row.startsWith_line hr).1, hcells⟩ hrest

/-- Lines that show the parameters of the given names in a table with four columns; there is no table
without parameters. -/
def IsInputSection (names lines : List String) : Prop :=
  if names = [] then lines = []
  else ∃ body, lines =
      [ "## Inputs 📥", "", "| Parameter | Type | Default | Description |",
        "|-----------|------|---------|-------------|" ] ++ body ++ [""] ∧
    List.Forall₂ IsRowOf names body

lemma isInputSection_iff {rows : List Row} {table : List String} (h : inputLines rows = .ok table) :
    IsInputSection (rows.map Row.name) (shown table) ↔ ∀ r ∈ rows, r.IsTidy := by
  cases rows with
  | nil =>
    cases h
    exact iff_of_true rfl (by simp)
  | cons r rows =>
    rw [inputLines, if_neg (by simp), except_bind_eq_ok] at h
    obtain ⟨ls, hls, h⟩ := h
    cases h
    have hhead : shown [ "## Inputs 📥", "", "| Parameter | Type | Default | Description |",
        "|-----------|------|---------|-------------|" ] =
      [ "## Inputs 📥", "", "| Parameter | Type | Default | Description |",
        "|-----------|------|---------|-------------|" ] := by decide +kernel
    have hend : shown [""] = [""] := by decide +kernel
    rw [IsInputSection, if_neg (by simp), shown_append, shown_append, hhead, hend,
      ← shown_rows_iff (mapM_eq_ok.mp hls)]
    constructor
    · rintro ⟨body, hbody, hrows⟩
      obtain rfl := append_cancel_left (append_cancel_right hbody)
      exact hrows
    · exact fun hrows => ⟨_, rfl, hrows⟩

lemma rows_of_preparePage {d : Description} {source : Path} {features : Value} {site : Site}
    {w w' : World} {page : Page} (h : preparePage d source features site w = (.ok page, w')) :
    page.rows = d.rows := by
  obtain ⟨name, _, -, h⟩ := bind_eq_ok h
  obtain ⟨title, _, -, h⟩ := bind_eq_ok h
  obtain ⟨overview, _, -, h⟩ := bind_eq_ok h
  obtain ⟨example_, _, -, h⟩ := bind_eq_ok h
  obtain ⟨⟨links, rest⟩, _, -, h⟩ := bind_eq_ok h
  dsimp only at h
  split at h
  all_goals
    obtain ⟨stability, _, -, h⟩ := bind_eq_ok h
    obtain ⟨formatted, _, -, h⟩ := bind_eq_ok h
    cases h
    rfl

lemma render_eq_ok {page : Page} {text : String} (h : page.render = .ok text) :
    ∃ before table after, inputLines page.rows = .ok table ∧
      text = Text.join "\n" (shown before ++ shown table ++ shown after) := by
  simp only [Page.render, Page.pieces, except_bind_eq_ok, except_pure_eq_ok] at h
  obtain ⟨_, ⟨table, htable, outputs, -, links, -, rfl⟩, rfl⟩ := h
  refine ⟨["# " ++ page.title ++ " ✨", ""] ++ stabilityLines page.stability ++
    ["## Overview 🧾", "", page.overview, ""], table,
    outputs ++ exampleLines page.example_ ++ featureLines page.features ++ links, htable, ?_⟩
  rw [← shown_append, ← shown_append]
  simp only [shown, append_assoc]

lemma map_name_rows {place : String} {d : Definition} {i : Interface} (hd : d.parameters.IsSignature)
    (h : interfaceOf place d = .ok i) : i.description.rows.map Row.name =
      (d.parameters.regular ++ d.parameters.keyword).map Parameter.name := by
  rw [← map_name_of_mapM (mapM_eq_ok.mpr (inputs_of_interfaceOf hd h)), Interface.description,
    map_map]
  rfl

/-- On the page of an asset, the section on inputs is a table with a line for each parameter, in the
order of the signature, and four cells in each line exactly if all texts fit their cells. -/
theorem isInputSection_of_generatePage {place : String} {d : Definition} {i : Interface}
    (hd : d.parameters.IsSignature) (hi : interfaceOf place d = .ok i) {source : Path} {site : Site}
    {w w' : World} {text : String} (h : generatePage i.description source site w = (.ok text, w')) :
    ∃ before table after, inputLines i.description.rows = .ok table ∧
      text = Text.join "\n" (shown before ++ shown table ++ shown after) ∧
      (IsInputSection ((d.parameters.regular ++ d.parameters.keyword).map Parameter.name) (shown table) ↔
        ∀ r ∈ i.description.rows, r.IsTidy) := by
  obtain ⟨features, _, -, h⟩ := bind_eq_ok h
  obtain ⟨page, v, hpage, h⟩ := bind_eq_ok h
  rw [Run.ofExcept_apply] at h
  obtain ⟨before, table, after, htable, htext⟩ := render_eq_ok (congrArg Prod.fst h)
  rw [rows_of_preparePage hpage] at htable
  exact ⟨before, table, after, htable, htext, map_name_rows hd hi ▸ isInputSection_iff htable⟩

example : inputLines [] = .ok [] := by decide +kernel

theorem isInputSection_of_generatePage_optional : ∃ table,
    inputLines optionalInterface.description.rows = .ok table ∧
      IsInputSection ["path", "limit"] (shown table) := by
  have hpage : (generatePage optionalInterface.description loneTarget.source Run.rootSite
      (loneComponent "Loads.")).1.toOption.isSome := by decide +kernel
  obtain ⟨text, htext⟩ := Option.isSome_iff_exists.mp hpage
  obtain ⟨_, table, _, htable, -, hiff⟩ := isInputSection_of_generatePage
    (d := loader "Loads." optionalParameters) isSignature_optional interfaceOf_optional
    (Run.eq_ok_of_toOption htext)
  refine ⟨table, htable, hiff.mpr fun r hr => ?_⟩
  have hfits : ∀ s ∈ ["path", "limit", "Any", "`None`", ""], FitsCell s := by
    simp [FitsCell, unescaped, isLineEnd]
  rcases hr with _ | ⟨_, _ | ⟨_, ⟨⟩⟩⟩
  all_goals
    refine ⟨hfits _ (by decide), ?_, ?_, ?_⟩
    all_goals
      rintro s ⟨⟩
      exact hfits _ (by decide)

def unionParameters : Parameters :=
  .mk [] [.mk "limit" (some (.binary (.name "int") .bitOr (.constant .null false default)))
    (literal .null)] none [] none

def unionInterface : Interface :=
  { optionalInterface with inputs := [⟨"limit", "int | None", .null, .text ""⟩] }

/-- A union as a type makes a fifth cell. -/
theorem isInputSection_of_generatePage_union :
    interfaceOf "component" (loader "Loads." unionParameters) = .ok unionInterface ∧
    ∃ table, inputLines unionInterface.description.rows = .ok table ∧
      "| `limit` | `int | None` | `None` |  |" ∈ table ∧
      cellCount "| `limit` | `int | None` | `None` |  |" = 5 ∧ ¬IsInputSection ["limit"] (shown table) := by
  refine ⟨rfl, _, rfl, by decide +kernel, by decide +kernel, fun h => ?_⟩
  have htable : inputLines unionInterface.description.rows = .ok _ := rfl
  have htidy := (isInputSection_iff htable).mp h _ (.head _)
  exact absurd (show '|' ∈ unescaped "int | None".toList by decide) (htidy.2.1 "int | None" rfl).2

end Readme

end AssetCatalog
