import AssetCatalog.Package.Sync
import AssetCatalog.Proofs.Frame
import AssetCatalog.Proofs.TomlEntries

/-!
# When the manifest is brought up to date

The list of packages is found in the text, and the table in which it stands decides.
-/

namespace AssetCatalog.Package

open Toml Run List

variable {n : Nat} {p : Location} {c : Content}
variable {cs : List Char} {header names : List String} {xs : List Value} {text : String} {m : Value}

/-! ## The text that is replaced -/

/-- A text of one entry, and nothing else: an array under the name of the list of packages. -/
def isListEntry (cs : List Char) : Bool :=
  match ({} : Reading).statement cs with
  | .ok (r, []) =>
    match r.entries with
    | [(.text name, .list _)] => name = "packages"
    | _ => false
  | _ => false

/-- The table in which the list of packages stands that is found in a text, if what precedes the list
is a document and the list is an entry of its own. -/
def listTable? (text : String) : Option (List String) := do
  let cs := text.toList
  let rest ← listFrom cs
  let n ← listLength? rest
  let before ← (documentFrom (cs.length + 1) {} (cs.take (cs.length - rest.length))).toOption
  if isListEntry (rest.take n) then some before.header else none

lemma exists_of_mem_lineStarts {p : Char → Bool} {l : List Char} (h : l ∈ lineStarts p cs) :
    ∃ before, cs = before ++ '\n' :: l := by
  induction cs with
  | nil => cases h
  | cons c cs ih =>
    rw [lineStarts] at h
    split at h
    · rw [mem_append] at h
      obtain h | h := h
      · obtain ⟨before, rfl⟩ := ih h
        exact ⟨c :: before, rfl⟩
      · split at h
        · rename_i hc
          obtain rfl := mem_singleton.mp h
          exact ⟨[], by rw [hc]; rfl⟩
        · cases h
    · cases h

lemma exists_of_listFrom {rest : List Char} (h : listFrom cs = some rest) :
    ∃ p, cs = p ++ '\n' :: rest := by
  induction cs with
  | nil => cases h
  | cons c cs ih =>
    have hskip (h : listFrom cs = some rest) : ∃ p, c :: cs = p ++ '\n' :: rest := by
      obtain ⟨p, rfl⟩ := ih h
      exact ⟨c :: p, rfl⟩
    rw [listFrom] at h
    split at h
    · split at h
      · rename_i l hfound
        cases h
        obtain ⟨a, ha, hlist⟩ := exists_of_findSome?_eq_some hfound
        obtain ⟨p, hp⟩ := exists_of_mem_lineStarts ha
        have hdrop : c :: cs = ((c :: cs).take tableHeader.length ++ p) ++ '\n' :: a := by
          rw [append_assoc, ← hp, take_append_drop]
        unfold listAfter at hlist
        split at hlist
        · cases hlist
          exact ⟨_, hdrop⟩
        · split at hlist
          · cases hlist
          · obtain ⟨q, rfl⟩ := exists_of_mem_lineStarts (mem_of_find?_eq_some hlist)
            exact ⟨_, by rw [hdrop, append_cons, ← append_assoc]⟩
      · exact hskip h
    · exact hskip h

lemma exists_cons_take_listLength (h : listLength? cs = some n) : ∃ t, cs.take n = 'p' :: t := by
  unfold listLength? at h
  obtain ⟨rest, hword, h⟩ := Option.bind_eq_some_iff.mp h
  obtain ⟨hpre, hword⟩ := Option.ite_none_right_eq_some.mp hword
  cases hword
  obtain ⟨t, rfl⟩ := isPrefixOf_iff_prefix.mp hpre
  have hle (p : Char → Bool) (l : List Char) : (l.dropWhile p).length ≤ l.length :=
    (dropWhile_sublist p).length_le
  have hlen : n ≠ 0 := by
    split at h
    · rename_i more hmore
      split at h
      · rename_i more' hmore'
        obtain ⟨⟨body, after⟩, hcut, h⟩ := Option.bind_eq_some_iff.mp h
        have hafter := congrArg List.length (Text.append_of_cutList? hcut)
        have hfirst := hle Text.isBlank (List.drop 8 ("packages".toList ++ t))
        have hsecond := hle Text.isBlank more
        rw [hmore] at hfirst
        rw [hmore'] at hsecond
        cases h
        simp at hafter hfirst hsecond ⊢
        omega
      · cases h
    · cases h
  obtain ⟨k, rfl⟩ := Nat.exists_eq_succ_of_ne_zero hlen
  exact ⟨("ackages".toList ++ t).take k, rfl⟩

lemma readSteps_cons_p {t c : List Char} {ss : List Step} : readSteps ('p' :: t) = .ok (ss, c) ↔
    ∃ e, readEntry (fueled readValue) ('p' :: t) = .ok (e, c) ∧ ss = [.entry e.1 e.2] := by
  have hsteps : readSteps ('p' :: t) = (do let s ← readStep; pure [s]) ('p' :: t) := rfl
  have hstep : readStep ('p' :: t) =
    (do let e ← readEntry (fueled readValue); pure (Step.entry e.1 e.2)) ('p' :: t) := rfl
  rw [hsteps, Reader.bind_eq_ok, hstep]
  simp only [Reader.bind_eq_ok]
  constructor
  · rintro ⟨_, _, ⟨e, d, he, heq⟩, heq'⟩
    cases heq
    cases heq'
    exact ⟨e, he, rfl⟩
  · rintro ⟨e, he, rfl⟩
    exact ⟨_, c, ⟨e, c, he, rfl⟩, rfl⟩

lemma orRefuse_eq_ok {α : Type} {x : Option α} {a : α} {c : List Char} :
    orRefuse x cs = .ok (a, c) ↔ x = some a ∧ cs = c := by
  cases x with
  | none => simp [orRefuse, throw, throwThe, MonadExceptOf.throw, StateT.lift, bind, Except.bind]
  | some b => simp [orRefuse, pure, StateT.pure, Except.pure]

lemma readSteps_of_isListEntry {t : List Char} (hcs : cs = 'p' :: t) (h : isListEntry cs) :
    ∃ xs, ∀ X, readSteps (cs ++ X) = .ok ([.entry ["packages"] (.list xs)], X) := by
  subst hcs
  unfold isListEntry at h
  split at h
  · rename_i r hstatement
    split at h
    · rename_i name xs hentries
      obtain ⟨ss, rest, hsteps, hrun⟩ := Reader.bind_eq_ok.mp hstatement
      obtain ⟨⟨key, v⟩, hentry, rfl⟩ := readSteps_cons_p.mp hsteps
      obtain ⟨hadd, rfl⟩ := orRefuse_eq_ok.mp hrun
      obtain ⟨rfl, rfl⟩ : key = ["packages"] ∧ v = .list xs := by
        replace hadd : (Step.entry key v).run {} = some r := by simpa [runSteps] using hadd
        obtain ⟨_, es, hput, rfl⟩ := run_eq_some.mp hadd
        have hes : es = [(.text name, .list xs)] := hentries
        subst hes
        rw [Step.change] at hput
        unfold putEntry at hput
        split at hput
        · rename_i last hlast
          replace hlast : key.getLast? = some last := hlast
          replace hput : within true (addEntry last v) key.dropLast [] = _ := hput
          have hkey := dropLast_append_getLast? _ hlast
          rcases hinit : key.dropLast with _ | ⟨k, ks⟩
          · rw [hinit] at hput hkey
            obtain ⟨_, hes⟩ := addEntry_eq_some.mp hput
            simp only [Value.put, List.cons.injEq, Prod.mk.injEq, Value.text.injEq,
              and_true] at hes
            rw [← hkey, ← hes.1, of_decide_eq_true h]
            exact ⟨rfl, hes.2.symm⟩
          · rw [hinit, within_cons_iff] at hput
            generalize hes : [(Value.text name, Value.list xs)] = es at hput
            cases hput with
            | list hnamed => cases hnamed
            | map hnamed => cases hnamed
            | fresh _ _ => cases hes
        · cases hput
      exact ⟨xs, fun X => readSteps_cons_p.mpr ⟨_, readEntry_append hentry X, rfl⟩⟩
    · cases h
  · cases h

/-! ## The list as it is written -/

/-- A name that is written between quotes as it stands. -/
def IsPlain (name : String) : Prop :=
  ∀ c ∈ name.toList, c ≠ '"' ∧ c ≠ '\\' ∧ isControl c = false

def itemLines : List String → List Char
  | [] => [']']
  | n :: ns => ' ' :: ' ' :: ' ' :: ' ' :: '"' :: (n.toList ++ '"' :: ',' :: '\n' :: itemLines ns)

lemma toList_listText (h : names ≠ []) :
    (listText names).toList = "packages = [\n".toList ++ itemLines names := by
  have hjoin : (Text.join ",\n" (names.map fun n => "    \"" ++ n ++ "\"")).toList ++ ",\n]".toList =
      itemLines names := by
    induction names with
    | nil => exact absurd rfl h
    | cons n ns ih =>
      cases ns with
      | nil => simp [Text.join, itemLines]
      | cons m ms =>
        rw [map_cons, map_cons, Text.join_cons_cons, itemLines, ← ih (by simp)]
        simp
  rw [listText, String.toList_append, String.toList_append, append_assoc]
  exact congrArg _ hjoin

lemma textFrom_plain (h : ∀ c ∈ cs, c ≠ '"' ∧ c ≠ '\\' ∧ isControl c = false)
    (acc rest : List Char) (hn : cs.length < n) :
    textFrom '"' false n 0 acc (cs ++ '"' :: rest) = .ok (acc.reverse ++ cs, rest) := by
  induction cs generalizing acc n with
  | nil =>
    obtain ⟨k, rfl⟩ := Nat.exists_eq_succ_of_ne_zero (by omega : n ≠ 0)
    rw [append_nil]
    exact Reader.bind_ok (next_eq_ok.mpr ⟨rfl, rfl⟩) rfl
  | cons c cs ih =>
    obtain ⟨k, rfl⟩ := Nat.exists_eq_succ_of_ne_zero (by omega : n ≠ 0)
    obtain ⟨hquote, hslash, hcontrol⟩ := h c (by simp)
    refine Reader.bind_ok (next_eq_ok.mpr ⟨rfl, by simp [allowed, hcontrol]⟩) ?_
    have hrest := ih (fun d hd => h d (by simp [hd])) (c :: acc) (by simpa using hn)
    simpa [hquote, hslash] using hrest

lemma textAfter_plain {name : String} (h : IsPlain name) (rest : List Char) :
    textAfter '"' (name.toList ++ '"' :: ',' :: rest) = .ok (name, ',' :: rest) := by
  rcases hcs : name.toList with _ | ⟨c, cs⟩
  · obtain rfl : name = "" := by simpa using hcs
    rfl
  · have hquote : follows '"' (name.toList ++ '"' :: ',' :: rest) =
        .ok (false, name.toList ++ '"' :: ',' :: rest) := by
      rw [hcs]
      exact follows_of_ne (h c (by simp [hcs])).1 _
    rw [← hcs]
    refine Reader.bind_ok hquote ?_
    refine Reader.bind_ok (x := name.toList) (textFrom_plain h [] _ (by simp)) ?_
    rw [String.ofList_toList]
    rfl

lemma readValue_plain {name : String} (h : IsPlain name) (n : Nat) (rest : List Char) :
    readValue (n + 1) ('"' :: (name.toList ++ '"' :: ',' :: rest)) = .ok (.text name, ',' :: rest) := by
  rw [readValue.eq_def]
  refine Reader.bind_ok (next?_eq_some.mpr ⟨rfl, rfl⟩) ?_
  have hmap : (Value.text <$> textAfter '"') = (do let s ← textAfter '"'; pure (.text s)) := map_eq_pure_bind ..
  refine (congrFun hmap _).trans ?_
  exact Reader.bind_ok (textAfter_plain h rest) rfl

lemma skipAll_of_dropWhile {a b : List Char} {x : Char} (h : a.dropWhile isSpace = x :: b)
    (hx : x ≠ '#') : skipAll a = .ok ((), x :: b) := by
  refine Reader.bind_ok (Reader.bind_ok (x := a.takeWhile isSpace) (b := x :: b) ?_ rfl) ?_
  · rw [charsOf, h]
    rfl
  · exact Reader.bind_ok (follows_of_ne hx b) rfl

lemma readItems_lines (h : ∀ n ∈ names, IsPlain n) (X : List Char) (hn : names.length < n) :
    readItems n ('\n' :: (itemLines names ++ X)) = .ok (names.map .text, X) := by
  induction names generalizing n with
  | nil =>
    obtain ⟨k, rfl⟩ := Nat.exists_eq_succ_of_ne_zero (by omega : n ≠ 0)
    rw [readItems.eq_def]
    refine Reader.bind_ok (skipAll_of_dropWhile rfl (by decide)) ?_
    exact Reader.bind_ok (follows_self _ _) rfl
  | cons m ms ih =>
    obtain ⟨k, rfl⟩ : ∃ k, n = k + 2 := ⟨n - 2, by simp at hn; omega⟩
    have hrest := ih (fun n hn => h n (by simp [hn])) (n := k + 1) (by simp at hn; omega)
    rw [readItems.eq_def]
    refine Reader.bind_ok (b := '"' :: (m.toList ++ '"' :: ',' :: '\n' :: (itemLines ms ++ X)))
      (skipAll_of_dropWhile (by simp [itemLines, isSpace, isBlank]) (by decide)) ?_
    refine Reader.bind_ok (follows_of_ne (by decide) _) ?_
    refine Reader.bind_ok (readValue_plain (h m (by simp)) k _) ?_
    refine Reader.bind_ok (skipAll_of_dropWhile rfl (by decide)) ?_
    refine Reader.bind_ok (follows_self _ _) ?_
    rw [if_pos rfl, map_eq_pure_bind]
    exact Reader.bind_ok hrest rfl

lemma length_lt_itemLines (names : List String) : names.length < (itemLines names).length := by
  induction names with
  | nil => simp [itemLines]
  | cons n ns ih =>
    simp [itemLines]
    omega

lemma readSteps_listText (hne : names ≠ []) (h : ∀ n ∈ names, IsPlain n) (X : List Char) :
    readSteps ((listText names).toList ++ X) = .ok ([.entry ["packages"] (.list (names.map .text))], X) := by
  rw [toList_listText hne, append_assoc]
  have hkey (rest : List Char) : readKey ("packages = [\n".toList ++ rest) =
      .ok (["packages"], '=' :: ' ' :: '[' :: '\n' :: rest) := rfl
  refine readSteps_cons_p.mpr ⟨(["packages"], .list (names.map .text)), ?_, rfl⟩
  refine Reader.bind_ok (hkey _) (Reader.bind_ok rfl ?_)
  refine Reader.bind_ok (b := '[' :: '\n' :: (itemLines names ++ X)) rfl (Reader.bind_ok ?_ rfl)
  refine (readValue_bracket _ _).trans ?_
  rw [map_eq_pure_bind]
  refine Reader.bind_ok (readItems_lines h X ?_) rfl
  have := length_lt_itemLines names
  simp
  omega

/-! ## The manifest before and after -/

lemma skipBlanks_cons_p (t : List Char) : skip isBlank ('p' :: t) = .ok ((), 'p' :: t) := rfl

lemma listTable?_eq_some (h : listTable? text = some header) : ∃ pre region post before,
      text.toList = pre ++ (region ++ post) ∧ Ended pre ∧ (∃ t, region = 'p' :: t) ∧
      isListEntry region ∧ documentFrom (text.toList.length + 1) {} pre = .ok before ∧
      before.header = header ∧ ∀ names, replaceList text names =
        some (String.ofList (pre ++ ((listText names).toList ++ post))) := by
  unfold listTable? at h
  obtain ⟨rest, hrest, h⟩ := Option.bind_eq_some_iff.mp h
  obtain ⟨n, hn, h⟩ := Option.bind_eq_some_iff.mp h
  obtain ⟨before, hbefore, h⟩ := Option.bind_eq_some_iff.mp h
  obtain ⟨hentry, h⟩ := Option.ite_none_right_eq_some.mp h
  cases h
  obtain ⟨p, hp⟩ := exists_of_listFrom hrest
  have htake : text.toList.take (text.toList.length - rest.length) = p ++ ['\n'] := by
    have hlen : (p ++ ['\n']).length = (p ++ ['\n'] ++ rest).length - rest.length := by
      simp only [length_append]
      omega
    rw [hp, append_cons, ← hlen, take_left]
  rw [htake] at hbefore
  refine ⟨p ++ ['\n'], rest.take n, rest.drop n, before, ?_, ?_, exists_cons_take_listLength hn, hentry,
    ?_, rfl, fun names => ?_⟩
  · rw [take_append_drop, hp, append_cons]
  · intro x hx
    simpa using hx.symm
  · rcases hdoc : documentFrom (text.toList.length + 1) {} (p ++ ['\n']) with e | r
    · rw [hdoc] at hbefore
      cases hbefore
    · rw [hdoc] at hbefore
      cases hbefore
      rfl
  · simp only [replaceList, hrest, Option.bind_eq_bind, Option.bind_some, hn, htake, append_assoc]

lemma exists_common (htable : listTable? text = some header) {ss : List Step} {r : Reading}
    (hss : StepsRead text.toList ss) (hrun : runSteps {} ss = some r) (hne : names ≠ [])
    (hplain : ∀ n ∈ names, IsPlain n) :
    ∃ xs updated ss' r', replaceList text names = some updated ∧ StepsRead updated.toList ss' ∧
      runSteps {} ss' = some r' ∧ Twins xs (names.map .text) (header ++ ["packages"]) r r' := by
  obtain ⟨pre, region, post, before, htext, hended, ⟨t, hregion⟩, hentry, hbefore, rfl, hreplace⟩ :=
    listTable?_eq_some htable
  obtain ⟨ss0, hss0, hrun0⟩ := (documentFrom_eq_ok (by rw [htext]; simp)).mp hbefore
  obtain ⟨xs, hstep⟩ := readSteps_of_isListEntry hregion hentry
  -- the steps before the list, the list, and the steps after it
  rw [htext] at hss
  obtain ⟨ts, hts, rfl⟩ := (hss0.append_iff hended).mp hss
  rw [StepsRead.steps_iff (by rw [hregion]; exact skipBlanks_cons_p _) (hstep post)] at hts
  obtain ⟨vs, hrest, rfl⟩ := hts
  rw [singleton_append] at hrun
  have hnew : StepsRead ((listText names).toList ++ post)
      (.entry ["packages"] (.list (names.map .text)) :: vs) := by
    refine (StepsRead.steps_iff ?_ (readSteps_listText hne hplain post)).mpr ⟨vs, hrest, rfl⟩
    rw [toList_listText hne]
    exact skipBlanks_cons_p ("ackages = [\n".toList ++ itemLines names ++ post)
  rw [runSteps_append, hrun0, Option.bind_some] at hrun
  obtain ⟨r', hrun', htwins⟩ := exists_twin hrun (names.map .text)
  refine ⟨xs, _, ss0 ++ .entry ["packages"] (.list (names.map .text)) :: vs, r', hreplace names, ?_, ?_, htwins⟩
  · rw [String.toList_ofList]
    exact (hss0.append_iff hended).mpr ⟨_, hnew, rfl⟩
  · rw [runSteps_append, hrun0, Option.bind_some, hrun']

/-! ## What a manifest declares -/

def packagesPath : List String := ["tool", "setuptools", "packages"]

lemma declaredIn_of_valueAt (h : valueAt packagesPath m = some (.list xs)) :
    declaredIn m = .ok xs := by
  have hcons {k : String} {ks : List String} {v w : Value} (h : valueAt (k :: ks) v = some w) :
      ∃ es u, v = .map es ∧ Value.named k es = some u ∧ valueAt ks u = some w := by
    cases v with
    | map es =>
      obtain ⟨u, hu, h⟩ := Option.bind_eq_some_iff.mp h
      exact ⟨es, u, rfl, hu, h⟩
    | _ => cases h
  obtain ⟨es, u, rfl, hu, h⟩ := hcons h
  obtain ⟨es', u', rfl, hu', h⟩ := hcons h
  obtain ⟨es'', u'', rfl, hu'', h⟩ := hcons h
  cases h
  simp [declaredIn, Value.get, hu, hu', hu'', bind, Except.bind, pure, Except.pure]

lemma bind_valueAt_cons {w u : Option Value} {k : String}
    (h : (w.getD (.map [])).get k = .ok u) (ks : List String) :
    w.bind (valueAt (k :: ks)) = u.bind (valueAt ks) := by
  cases w with
  | none =>
    cases h
    rfl
  | some v =>
    obtain ⟨es, rfl, rfl⟩ := Value.get_eq_ok (v := v) h
    rfl

lemma ne_list_of_get {w u : Option Value} {k : String} {vs : List Value}
    (h : (w.getD (.map [])).get k = .ok u) : w ≠ some (.list vs) := by
  rintro rfl
  cases h

/-- What is declared stands at its path; if nothing stands there, nothing is declared. No array is
on the way. -/
lemma valueAt_of_declaredIn (h : declaredIn m = .ok xs) :
    (valueAt packagesPath m = some (.list xs) ∨ (valueAt packagesPath m = none ∧ xs = [])) ∧
      ∀ path vs, path <+: ["tool", "setuptools"] → valueAt path m ≠ some (.list vs) := by
  unfold declaredIn at h
  obtain ⟨tool, htool, h⟩ := except_bind_eq_ok.mp h
  obtain ⟨table, htable, h⟩ := except_bind_eq_ok.mp h
  obtain ⟨packages, hpackages, h⟩ := except_bind_eq_ok.mp h
  have hfirst (ks : List String) : valueAt ("tool" :: ks) m = tool.bind (valueAt ks) :=
    bind_valueAt_cons (w := some m) htool ks
  have hsecond (ks : List String) :
      valueAt ("tool" :: "setuptools" :: ks) m = table.bind (valueAt ks) := by
    rw [hfirst, bind_valueAt_cons htable]
  have hself (v : Option Value) : v.bind (valueAt []) = v := Option.bind_fun_some v
  constructor
  · rw [packagesPath, hsecond, bind_valueAt_cons hpackages, hself]
    rcases packages with _ | (_ | _)
    all_goals cases h
    · exact .inr ⟨rfl, rfl⟩
    · exact .inl rfl
  · intro path vs hpath
    rcases path with _ | ⟨a, _ | ⟨b, _ | ⟨c, path⟩⟩⟩
    · exact ne_list_of_get (w := some m) htool
    all_goals rw [cons_prefix_cons] at hpath
    · rw [hpath.1, hfirst, hself]
      exact ne_list_of_get htable
    all_goals rw [cons_prefix_cons] at hpath
    · rw [hpath.1, hpath.2.1, hsecond, hself]
      exact ne_list_of_get hpackages
    · exact absurd hpath.2.2 (by simp)

/-- The packages that a manifest declares, put in order, are those of `names`. -/
def Lists (m : Value) (names : List String) : Prop :=
  ∃ xs, declaredIn m = .ok xs ∧ Value.sorted xs = .ok (names.map .text)

section Replaced

variable {ys zs : List Value} {m' : Value} {last : Bool}

lemma declaredIn_of_twin (h : Twin xs ys last packagesPath m m') (hm : declaredIn m = .ok zs) :
    declaredIn m' = .ok ys := by
  rcases h.valueAt_self with ⟨_, hself⟩ | ⟨path, k, ks, vs, hpath, hvs⟩
  · exact declaredIn_of_valueAt hself
  · refine absurd hvs ((valueAt_of_declaredIn hm).2 path vs ?_)
    have hlen := congrArg List.length hpath
    refine prefix_of_prefix_length_le ⟨k :: ks, hpath.symm⟩ ⟨["packages"], rfl⟩ ?_
    simp [packagesPath] at hlen ⊢
    omega

lemma lists_of_twin (h : Twin xs ys last (header ++ ["packages"]) m m')
    (hheader : header ≠ ["tool", "setuptools"]) (hne : names ≠ []) (hlists : Lists m' names) :
    Lists m names := by
  obtain ⟨zs, hdeclared, hsorted⟩ := hlists
  have hperm := Value.sorted_perm hsorted
  rcases (valueAt_of_declaredIn hdeclared).1 with hat | ⟨_, rfl⟩
  · rcases h.valueAt_cases packagesPath with hsame | ⟨last', ks, v, w, hkey, _, hw, htwin⟩
    · exact ⟨zs, declaredIn_of_valueAt (hsame.symm.trans hat), hsorted⟩
    · obtain rfl := Option.some.inj (hw.symm.trans hat)
      cases htwin with
      | array =>
        rw [append_nil] at hkey
        exact absurd (append_inj_left' (hkey : _ = ["tool", "setuptools"] ++ ["packages"]) rfl) hheader
      | member vs us =>
        obtain ⟨s, _, hs⟩ := mem_map.mp (hperm.mem_iff.mpr (mem_append_right vs mem_cons_self))
        cases hs
  · have := hperm.length_eq
    simp [hne] at this

end Replaced

/-! ## The packages of a tree -/

/-- The same folders, and files at the same places. -/
structure SamePlaces (t u : Tree) : Prop where
  folders : u.folders = t.folders
  files : u.files.map (·.1) = t.files.map (·.1)

lemma isFile_iff (t : Tree) (p : Location) : t.isFile p ↔
    ∃ l, t.follow [] p = .ok l ∧ l ∉ t.folders ∧ l ∈ t.files.map (·.1) := by
  rw [Tree.isFile, Tree.find]
  rcases t.follow [] p with e | l
  · simp [bind, Except.bind]
  · by_cases hl : l ∈ t.folders
    · simp [bind, Except.bind, Tree.entry?, hl, pure, Except.pure]
    · have hmem := Tree.mem_files_iff t l
      rcases hlookup : t.files.lookup l with _ | c
      · rw [hlookup] at hmem
        simpa [bind, Except.bind, Tree.entry?, hl, hlookup] using hmem
      · rw [hlookup] at hmem
        simpa [bind, Except.bind, Tree.entry?, hl, hlookup, pure, Except.pure] using hmem

namespace SamePlaces

variable {t u : Tree}

lemma follow_eq_ok_iff (h : SamePlaces t u) {l : Location} :
    u.follow [] p = .ok l ↔ t.follow [] p = .ok l :=
  ⟨Tree.follow_of_folders_eq h.folders.symm, Tree.follow_of_folders_eq h.folders⟩

lemma isFile (h : SamePlaces t u) (p : Location) : u.isFile p = t.isFile p := by
  rw [Bool.eq_iff_iff, isFile_iff, isFile_iff, h.folders, h.files]
  simp only [h.follow_eq_ok_iff]

lemma isFolder (h : SamePlaces t u) (p : Location) : u.isFolder p = t.isFolder p := by
  rw [Bool.eq_iff_iff, Tree.isFolder_iff, Tree.isFolder_iff, h.folders]
  simp only [h.follow_eq_ok_iff]

lemma allBelow (h : SamePlaces t u) (p : Location) : u.allBelow p = t.allBelow p := by
  have hentry (l : Location) : (u.entry? l = some .folder) ↔ (t.entry? l = some .folder) := by
    rw [Tree.entry?_eq_folder_iff, Tree.entry?_eq_folder_iff, h.folders]
  rw [Tree.allBelow, Tree.allBelow]
  rcases ht : t.follow [] p with e | l
  · rcases hu : u.follow [] p with e' | l
    · rfl
    · rw [h.follow_eq_ok_iff, ht] at hu
      cases hu
  · rw [h.follow_eq_ok_iff.mpr ht]
    by_cases hl : t.entry? l = some .folder
    · simp only [hl, (hentry l).mpr hl, h.folders, h.files]
    · have hl' := mt (hentry l).mp hl
      rcases ht' : t.entry? l with _ | (c | _) <;> rcases hu' : u.entry? l with _ | (c' | _) <;>
        simp_all

lemma distributed (h : SamePlaces t u) (root : Location) :
    distributed u root = distributed t root := by
  simp only [Package.distributed, chains, h.allBelow, h.isFolder, h.isFile]

end SamePlaces

lemma map_fst_putFile {l : Location} {fs : List (Location × Content)}
    (h : l ∈ fs.map (·.1)) : (Tree.putFile l c fs).map (·.1) = fs.map (·.1) := by
  induction fs with
  | nil => cases h
  | cons f fs ih =>
    rw [Tree.putFile]
    split
    · rfl
    · rename_i hne
      rw [map_cons, map_cons, ih]
      rw [map_cons, mem_cons] at h
      exact h.resolve_left fun heq => hne heq.symm

lemma write_over {t u : Tree} {d : Content} (hread : t.read p = .ok c)
    (hwrite : t.write p d = .ok u) : SamePlaces t u ∧ u.read p = .ok d := by
  obtain ⟨l, hl, hfolder, hlookup⟩ := Tree.read_eq_ok hread
  obtain ⟨k, hk, _, rfl⟩ := Tree.write_eq_ok hwrite
  obtain rfl : l = k := Except.ok.inj (hl.symm.trans hk)
  have hmem : l ∈ t.files.map (·.1) := by
    rw [Tree.mem_files_iff, hlookup]
    rfl
  have hplaces : SamePlaces t { t with files := Tree.putFile l d t.files } :=
    ⟨rfl, map_fst_putFile hmem⟩
  refine ⟨hplaces, Tree.read_of_follow (hplaces.follow_eq_ok_iff.mpr hl) hfolder ?_⟩
  rw [Tree.lookup_putFile, if_pos rfl]

lemma distributed_ne_nil (t : Tree) (root : Location) : distributed t root ≠ [] := by
  intro h
  have hlen := congrArg List.length h
  rw [distributed, Text.sort, length_mergeSort] at hlen
  cases hlen

lemma pairwise_distributed (t : Tree) (root : Location) : (distributed t root).Pairwise (· ≤ ·) :=
  Text.pairwise_mergeSort id _

/-! ## Bringing the manifest up to date -/

@[mk_iff]
structure Holds (t : Tree) (p : Location) (text : String) (m : Value) : Prop where
  read : t.read p = .ok (.text text)
  parsed : Toml.parse text = .ok m

lemma Holds.unique {t : Tree} {text' : String} {m' : Value} (h : Holds t p text m)
    (h' : Holds t p text' m') : text' = text ∧ m' = m := by
  have htext : text' = text := by
    have := h'.read.symm.trans h.read
    simpa using this
  subst htext
  exact ⟨rfl, Except.ok.inj (h'.parsed.symm.trans h.parsed)⟩

variable {root : Path} {site : Site} {w w' : World}

def manifestPlace (root : Path) (site : Site) : Location :=
  (site.home.join (root.below manifestName)).names

def found (root : Path) (site : Site) (t : Tree) : List String :=
  distributed t (site.home.join root).names

def asRead (text : String) : String := String.ofList (Text.unifyNewlines text.toList)

lemma readManifest_eq_ok {p : Path} {v : World} :
    readManifest p site w = (.ok m, v) ↔ v = w ∧ ∃ text, Holds w.tree (site.home.join p).names text m := by
  rw [readManifest, bind_apply, content_apply]
  rcases hread : w.tree.read (site.home.join p).names with e | (s | bs)
  · exact iff_of_false nofun (by simp [holds_iff, hread])
  · simp only [bind_apply, ofExcept_apply, Content.exactText, pure, Except.pure, holds_iff, hread]
    rcases hparse : Toml.parse s with e | u
    · exact iff_of_false (by cases e <;> exact nofun) (by simp [hparse])
    · constructor
      · rintro ⟨⟩
        exact ⟨rfl, s, rfl, hparse⟩
      · rintro ⟨rfl, _, ⟨⟩, h⟩
        cases hparse.symm.trans h
        rfl
  · exact iff_of_false nofun (by simp [holds_iff, hread])

/-- A catalogue whose manifest lists its packages. -/
def InStep (root : Path) (site : Site) (t : Tree) : Prop :=
  ∃ text m, Holds t (manifestPlace root site) text m ∧ Lists m (found root site t)

/-- What a completed run did: nothing if the manifest was in step, and else it replaced the list. -/
lemma sync_eq_ok (h : sync root site w = (.ok (), w')) :
    ∃ text m xs, Holds w.tree (manifestPlace root site) text m ∧ declaredIn m = .ok xs ∧
      (Lists m (found root site w.tree) ∧ w'.tree = w.tree ∨
        ∃ updated, ¬ Lists m (found root site w.tree) ∧
          replaceList (asRead text) (found root site w.tree) = some updated ∧
          w.tree.write (manifestPlace root site) (.text updated) = .ok w'.tree) := by
  unfold sync at h
  obtain ⟨text', v, htext, hrest⟩ := bind_eq_ok h
  rw [readText_apply, Prod.mk.injEq] at htext
  obtain ⟨htext, rfl⟩ := htext
  obtain ⟨xs, v, hdeclared, hrest⟩ := bind_eq_ok hrest
  unfold readDeclared at hdeclared
  obtain ⟨m, v', hm, hxs⟩ := bind_eq_ok hdeclared
  obtain ⟨rfl, text, hholds⟩ := readManifest_eq_ok.mp hm
  rw [ofExcept_apply, Prod.mk.injEq] at hxs
  obtain ⟨hxs, rfl⟩ := hxs
  have htext' : text' = asRead text := by
    rw [hholds.read] at htext
    exact (Except.ok.inj htext).symm
  refine ⟨text, m, xs, hholds, hxs, ?_⟩
  simp only [bind_apply, get_apply, locate_apply, ofExcept_apply] at hrest
  rcases hsorted : Value.sorted xs with e | ys
  · rw [hsorted] at hrest
    cases hrest
  rw [hsorted] at hrest
  dsimp only at hrest
  have hlists : Lists m (found root site v'.tree) ↔ ys = (found root site v'.tree).map .text := by
    constructor
    · rintro ⟨xs', hxs', hsorted'⟩
      obtain rfl := Except.ok.inj (hxs.symm.trans hxs')
      exact Except.ok.inj (hsorted.symm.trans hsorted')
    · rintro rfl
      exact ⟨xs, hxs, hsorted⟩
  by_cases hsame : (Value.list ys == .list ((found root site v'.tree).map .text))
  · rw [found] at hsame
    rw [if_pos hsame] at hrest
    cases hrest
    exact .inl ⟨hlists.mpr (Value.list_beq_texts_iff.mp hsame), rfl⟩
  · have hnot : ¬ Lists m (found root site v'.tree) := fun hl =>
      hsame (Value.list_beq_texts_iff.mpr (hlists.mp hl))
    rw [found] at hsame
    rw [if_neg hsame] at hrest
    rcases hupdated : replaceList text' (distributed v'.tree (site.home.join root).names) with _ | updated
    · rw [hupdated] at hrest
      cases hrest
    · rw [hupdated] at hrest
      obtain ⟨_, v, hwrite, hprint⟩ := bind_eq_ok hrest
      have htree : w'.tree = v.tree := by
        cases hprint
        rfl
      exact .inr ⟨updated, hnot, htext' ▸ hupdated, htree ▸ writeText_eq_ok hwrite⟩

lemma Holds.readText (h : Holds w.tree (manifestPlace root site) text m) :
    Run.readText (root.below manifestName) site w = (.ok (asRead text), w) := by
  rw [readText_apply]
  exact congrArg (·, w) (congrArg (Except.bind · Content.lineText) h.read)

lemma Holds.readDeclared (h : Holds w.tree (manifestPlace root site) text m)
    (hxs : declaredIn m = .ok xs) :
    readDeclared (root.below manifestName) site w = (.ok xs, w) := by
  rw [Package.readDeclared, bind_of_eq (readManifest_eq_ok.mpr ⟨rfl, text, h⟩),
    ofExcept_apply, hxs]

lemma sync_of_inStep (h : InStep root site w.tree) :
    ∃ w', sync root site w = (.ok (), w') ∧ w'.tree = w.tree := by
  obtain ⟨text, m, hholds, xs, hxs, hsorted⟩ := h
  refine ⟨{ w with output := w.output ++ ("pyproject.toml packages already in sync." ++ "\n") }, ?_, rfl⟩
  rw [sync, bind_of_eq hholds.readText, bind_of_eq (hholds.readDeclared hxs)]
  simp only [bind_apply, get_apply, locate_apply, ofExcept_apply, hsorted]
  rw [found, if_pos (Value.list_beq_texts_iff.mpr rfl)]
  rfl

lemma sync_of_replaceList {updated : String} {ys : List Value} {u : Tree}
    (hholds : Holds w.tree (manifestPlace root site) text m) (hxs : declaredIn m = .ok xs)
    (hsorted : Value.sorted xs = .ok ys) (hne : ys ≠ (found root site w.tree).map .text)
    (hreplace : replaceList (asRead text) (found root site w.tree) = some updated)
    (hwrite : w.tree.write (manifestPlace root site) (.text updated) = .ok u) :
    ∃ w', sync root site w = (.ok (), w') ∧ w'.tree = u := by
  rw [found] at hne hreplace
  rw [manifestPlace] at hwrite
  rw [sync, bind_of_eq hholds.readText, bind_of_eq (hholds.readDeclared hxs)]
  simp only [bind_apply, get_apply, locate_apply, ofExcept_apply, hsorted]
  rw [if_neg (mt Value.list_beq_texts_iff.mp hne), hreplace]
  simp only [Run.writeText, bind_apply, locate_apply, get_apply, ofExcept_apply, hwrite,
    modify_apply]
  exact ⟨_, rfl, rfl⟩

/-- What a manifest declares, in order. -/
def listed (text : String) : Except Fault (List Value) := do
  Value.sorted (← declaredIn (← Toml.parse text))

def lists? (text : String) (names : List String) : Bool :=
  match listed text with
  | .ok ys => Value.list ys == .list (names.map .text)
  | .error _ => false

lemma lists?_iff : lists? text names ↔ listed text = .ok (names.map .text) := by
  rw [lists?]
  rcases listed text with e | ys <;> simp [Value.list_beq_texts_iff]

lemma listed_eq_ok {ys : List Value} : listed text = .ok ys ↔
    ∃ m, Toml.parse text = .ok m ∧ ∃ xs, declaredIn m = .ok xs ∧ Value.sorted xs = .ok ys := by
  simp only [listed, except_bind_eq_ok]

lemma inStep_iff {t : Tree} (hread : t.read (manifestPlace root site) = .ok (.text text)) :
    InStep root site t ↔ listed text = .ok ((found root site t).map .text) := by
  rw [listed_eq_ok]
  constructor
  · rintro ⟨text', m, hholds, xs, hxs, hsorted⟩
    obtain rfl : text' = text := by simpa using hholds.read.symm.trans hread
    exact ⟨m, hholds.parsed, xs, hxs, hsorted⟩
  · rintro ⟨m, hparse, xs, hxs, hsorted⟩
    exact ⟨text, m, ⟨hread, hparse⟩, xs, hxs, hsorted⟩

lemma exists_sync {updated : String} {u : Tree}
    (hread : w.tree.read (manifestPlace root site) = .ok (.text text)) (hlisted : (listed text).isOk)
    (hreplace : replaceList (asRead text) (found root site w.tree) = some updated)
    (hwrite : w.tree.write (manifestPlace root site) (.text updated) = .ok u) :
    ∃ w', sync root site w = (.ok (), w') ∧ (¬ InStep root site w.tree → w'.tree = u) := by
  by_cases hstep : InStep root site w.tree
  · obtain ⟨w', hrun, -⟩ := sync_of_inStep hstep
    exact ⟨w', hrun, fun h => absurd hstep h⟩
  rcases hys : listed text with e | ys
  · rw [hys] at hlisted
    cases hlisted
  rw [inStep_iff hread, hys, Except.ok.injEq] at hstep
  obtain ⟨m, hparse, xs, hxs, hsorted⟩ := listed_eq_ok.mp hys
  obtain ⟨w', hrun, htree⟩ := sync_of_replaceList ⟨hread, hparse⟩ hxs hsorted hstep hreplace hwrite
  exact ⟨w', hrun, fun _ => htree⟩

/-- What a run on a catalogue with manifest `m` is to achieve: a manifest that is a document and lists
the packages, with every other value as it was, and which another run leaves alone. -/
structure Synced (root : Path) (site : Site) (m : Value) (t : Tree) : Prop where
  inStep : InStep root site t
  kept : ∀ text m', Holds t (manifestPlace root site) text m' →
    ∀ path, ¬ path <+: packagesPath → valueAt path m' = valueAt path m
  stable : ∀ w, w.tree = t → ∃ w', sync root site w = (.ok (), w') ∧ w'.tree = t

lemma Synced.of_inStep {t : Tree} (hstep : InStep root site t)
    (hkept : ∀ text m', Holds t (manifestPlace root site) text m' →
      ∀ path, ¬ path <+: packagesPath → valueAt path m' = valueAt path m) :
    Synced root site m t := by
  refine ⟨hstep, hkept, ?_⟩
  rintro w rfl
  exact sync_of_inStep hstep

lemma exists_common_manifest (hparse : Toml.parse text = .ok m)
    (htable : listTable? (asRead text) = some header) (hne : names ≠ [])
    (hplain : ∀ n ∈ names, IsPlain n) :
    ∃ xs last updated m', replaceList (asRead text) names = some updated ∧ Toml.parse updated = .ok m' ∧
      Twin xs (names.map .text) last (header ++ ["packages"]) m m' := by
  obtain ⟨ss, r, hss, hrun, rfl⟩ := parse_eq_ok.mp hparse
  have hread : (asRead text).toList = unifyLineEnds text.toList := by
    rw [asRead, String.toList_ofList]
    exact unifyNewlines_eq_unifyLineEnds hss.carriageReturn_notMem
  obtain ⟨xs, updated, ss', r', hreplace, hss', hrun', htwins⟩ :=
    exists_common htable (hread ▸ hss) hrun hne hplain
  obtain ⟨last, htwin, _⟩ := htwins.twin
  refine ⟨xs, last, updated, _, hreplace, parse_eq_ok.mpr ⟨ss', r', ?_, hrun', rfl⟩, htwin⟩
  rw [unifyLineEnds_eq_self hss'.carriageReturn_notMem]
  exact hss'

/-- A completed run achieves what it should if the manifest was in step. If it was not, and the list
that is found in the text of the manifest is an entry of its own after a document, then the run
achieves what it should exactly if that entry belongs to the table of the list of packages. -/
theorem synced_iff_table (hrun : sync root site w = (.ok (), w')) :
    ∃ text m, Holds w.tree (manifestPlace root site) text m ∧
      (InStep root site w.tree → Synced root site m w'.tree) ∧
      ((∀ n ∈ found root site w.tree, IsPlain n) → ∀ header, listTable? (asRead text) = some header →
        (Synced root site m w'.tree ↔
          InStep root site w.tree ∨ header = ["tool", "setuptools"])) := by
  obtain ⟨text, m, xs, hholds, hxs, hcases⟩ := sync_eq_ok hrun
  have hinStep : InStep root site w.tree ↔ Lists m (found root site w.tree) := by
    constructor
    · rintro ⟨text', m', hholds', hlists⟩
      exact (hholds.unique hholds').2 ▸ hlists
    · exact fun hlists => ⟨text, m, hholds, hlists⟩
  refine ⟨text, m, hholds, ?_⟩
  rcases hcases with ⟨hlists, htree⟩ | ⟨updated, hnot, hreplace, hwrite⟩
  · have hsynced : Synced root site m w'.tree := by
      rw [htree]
      refine .of_inStep (hinStep.mpr hlists) fun text' m' hholds' path _ => ?_
      rw [(hholds.unique hholds').2]
    exact ⟨fun _ => hsynced, fun _ _ _ => iff_of_true hsynced (.inl (hinStep.mpr hlists))⟩
  · rw [hinStep]
    refine ⟨fun hlists => absurd hlists hnot, fun hplain header htable => ?_⟩
    obtain ⟨ys, last, updated', m₁, hreplace', hparse, htwin⟩ :=
      exists_common_manifest hholds.parsed htable (distributed_ne_nil _ _) hplain
    obtain rfl : updated = updated' := Option.some.inj (hreplace.symm.trans hreplace')
    obtain ⟨hplaces, hread⟩ := write_over hholds.read hwrite
    have hfound : found root site w'.tree = found root site w.tree := hplaces.distributed _
    have hholds' : Holds w'.tree (manifestPlace root site) updated _ := ⟨hread, hparse⟩
    constructor
    · intro hsynced
      obtain ⟨text', m', hat, hlists⟩ := hsynced.inStep
      rw [(hholds'.unique hat).2, hfound] at hlists
      by_cases hheader : header = ["tool", "setuptools"]
      · exact .inr hheader
      · exact absurd (lists_of_twin htwin hheader (distributed_ne_nil _ _) hlists) hnot
    · rintro (hlists | rfl)
      · exact absurd hlists hnot
      · refine .of_inStep ⟨updated, _, hholds', ?_⟩ fun text' m' hat path hpath => ?_
        · rw [hfound]
          exact ⟨_, declaredIn_of_twin htwin hxs, Value.sorted_texts (pairwise_distributed _ _)⟩
        · rw [(hholds'.unique hat).2]
          rcases htwin.valueAt_cases path with hsame | ⟨_, ks, _, _, hks, _⟩
          · exact hsame
          · exact absurd ⟨ks, hks.symm⟩ hpath

def smallCatalogue (manifest : String) : World where
  tree :=
    { files := [(["pyproject.toml"], .text manifest), (["components", "__init__.py"], .text "")]
      folders := [[], ["components"]] }

def outdated : String :=
  "[build-system]\nrequires = []\n\n[tool.setuptools]\npackages = [\"kfp_components\"] # to do\n\n[a.b]\nc = 1\n"

lemma found_smallCatalogue (manifest : String) :
    found rootSite.repository rootSite (smallCatalogue manifest).tree =
      ["kfp_components", "kfp_components.components"] := by
  cbv

lemma isPlain_smallCatalogue (manifest : String) :
    ∀ n ∈ found rootSite.repository rootSite (smallCatalogue manifest).tree, IsPlain n := by
  simp [found_smallCatalogue, IsPlain, isControl]

lemma not_inStep_smallCatalogue {manifest : String}
    (h : listed manifest = .ok (["kfp_components"].map .text)) :
    ¬ InStep rootSite.repository rootSite (smallCatalogue manifest).tree := by
  rw [inStep_iff rfl, found_smallCatalogue, h, Except.ok.injEq]
  simp

lemma exists_sync_smallCatalogue {manifest : String} {header : List String}
    (hlisted : listed manifest = .ok (["kfp_components"].map .text))
    (htable : listTable? (asRead manifest) = some header) :
    ∃ xs last updated m m' w', Toml.parse manifest = .ok m ∧ Toml.parse updated = .ok m' ∧
      Twin xs ((found rootSite.repository rootSite (smallCatalogue manifest).tree).map .text) last
        (header ++ ["packages"]) m m' ∧
      sync rootSite.repository rootSite (smallCatalogue manifest) = (.ok (), w') ∧
      w'.tree = (smallCatalogue updated).tree := by
  obtain ⟨m, hparse, -⟩ := listed_eq_ok.mp hlisted
  obtain ⟨xs, last, updated, m', hreplace, hparse', htwin⟩ := exists_common_manifest hparse htable
    (distributed_ne_nil _ _) (isPlain_smallCatalogue manifest)
  obtain ⟨w', hrun, htree⟩ := exists_sync rfl (by rw [hlisted]; rfl) hreplace rfl
  exact ⟨xs, last, updated, m, m', w', hparse, hparse', htwin, hrun,
    htree (not_inStep_smallCatalogue hlisted)⟩

-- with the characters of the literals the kernel has nothing to decode
lemma listed_outdated : listed outdated = .ok (["kfp_components"].map .text) := by
  have hchars : outdated.toList = _ := String.toList_ofList
  rw [← lists?_iff, lists?, listed, Toml.parse, hchars]
  decide +kernel

lemma listTable_outdated : listTable? (asRead outdated) = some ["tool", "setuptools"] := by
  have hchars : outdated.toList = _ := String.toList_ofList
  rw [listTable?, asRead, String.toList_ofList, hchars]
  decide +kernel

theorem synced_outdated : ¬ InStep rootSite.repository rootSite (smallCatalogue outdated).tree ∧
      ∃ m w', Toml.parse outdated = .ok m ∧
        sync rootSite.repository rootSite (smallCatalogue outdated) = (.ok (), w') ∧
        Synced rootSite.repository rootSite m w'.tree := by
  obtain ⟨_, _, _, _, _, w', -, -, -, hrun, -⟩ :=
    exists_sync_smallCatalogue listed_outdated listTable_outdated
  obtain ⟨text, m, hholds, _, hiff⟩ := synced_iff_table hrun
  obtain rfl : outdated = text := Content.text.inj (Except.ok.inj hholds.read)
  refine ⟨not_inStep_smallCatalogue listed_outdated, m, w', hholds.parsed, hrun, ?_⟩
  exact (hiff (isPlain_smallCatalogue outdated) ["tool", "setuptools"] listTable_outdated).mpr (.inr rfl)

def misleading : String :=
  "[tool.setuptools]\nzip-safe = false\npackages = [\"kfp_components\"]\n\n[tool.other]\npackages = [\"x\"]\n"

lemma listed_misleading : listed misleading = .ok (["kfp_components"].map .text) := by
  have hchars : misleading.toList = _ := String.toList_ofList
  rw [← lists?_iff, lists?, listed, Toml.parse, hchars]
  decide +kernel

lemma listTable_misleading : listTable? (asRead misleading) = some ["tool", "other"] := by
  have hchars : misleading.toList = _ := String.toList_ofList
  rw [listTable?, asRead, String.toList_ofList, hchars]
  decide +kernel

/-- The list of the other table is replaced, and the manifest stays out of step. -/
theorem not_inStep_misleading :
    ∃ w', sync rootSite.repository rootSite (smallCatalogue misleading) = (.ok (), w') ∧
      ¬ InStep rootSite.repository rootSite w'.tree := by
  obtain ⟨_, _, updated, m, m', w', hparse, hparse', htwin, hrun, htree⟩ :=
    exists_sync_smallCatalogue listed_misleading listTable_misleading
  refine ⟨w', hrun, ?_⟩
  rw [htree]
  rintro ⟨text, m₁, hholds, hlists⟩
  have hafter : Holds (smallCatalogue updated).tree (manifestPlace rootSite.repository rootSite)
      updated m' := ⟨rfl, hparse'⟩
  rw [(hafter.unique hholds).2, found_smallCatalogue, ← found_smallCatalogue misleading] at hlists
  have hbefore := lists_of_twin htwin (by decide) (distributed_ne_nil _ _) hlists
  exact not_inStep_smallCatalogue listed_misleading ⟨misleading, m, ⟨rfl, hparse⟩, hbefore⟩

end AssetCatalog.Package
