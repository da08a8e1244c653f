import AssetCatalog.Proofs.TomlReading
import AssetCatalog.Proofs.Value

/-!
# Documents that differ in one array

Reading goes on around an array in the same way whatever it holds.
-/

namespace AssetCatalog.Toml

open List Option Step Value

variable {change : Entries → Option Entries} {path rest key ks : List String} {s : Step} {r r' : Reading}
variable {es es' u : Entries} {ss : List Step} {xs ys : List Value} {k name : String} {v w : Value}
  {moves last : Bool}

/-! ## Changes along keys -/

/-- What a change of the table under a name does. -/
inductive Within (change : Entries → Option Entries) (k : String) (ks : List String) (es : Entries) :
    Entries → Prop
  | fresh {t : Entries} (h : named k es = none) (ht : within true change ks [] = some t) :
      Within change k ks es (put (.text k) (.map t) es)
  | map {inner t : Entries} (h : named k es = some (.map inner))
      (ht : within true change ks inner = some t) : Within change k ks es (put (.text k) (.map t) es)
  | list {vs : List Value} {inner t : Entries}
      (h : named k es = some (.list (vs ++ [.map inner]))) (ht : within true change ks inner = some t) :
      Within change k ks es (put (.text k) (.list (vs ++ [.map t])) es)

lemma within_cons_iff : within true change (k :: ks) es = some u ↔ Within change k ks es u := by
  constructor
  · intro h
    rw [within.eq_def] at h
    dsimp only at h
    split at h
    · obtain ⟨t, ht, rfl⟩ := map_eq_some_iff.mp h
      exact .fresh ‹_› ht
    · obtain ⟨t, ht, rfl⟩ := map_eq_some_iff.mp h
      exact .map ‹_› ht
    · rename_i vs hnamed
      split at h
      · rename_i inner hlast
        obtain ⟨t, ht, rfl⟩ := map_eq_some_iff.mp h
        rw [← dropLast_append_getLast? _ hlast] at hnamed
        exact .list hnamed ht
      · cases h
    · cases h
  · intro h
    rw [within.eq_def]
    cases h with
    | fresh h ht => simp [h, ht]
    | map h ht => simp [h, ht]
    | list h ht => simp [h, ht]

/-- The same stands under the name in other entries, so that the change does the same there. -/
lemma Within.transfer (hsame : named k es' = named k es) (h : Within change k ks es u) :
    ∃ v, u = put (.text k) v es ∧ Within change k ks es' (put (.text k) v es') := by
  cases h with
  | fresh h ht => exact ⟨_, rfl, .fresh (hsame.trans h) ht⟩
  | map h ht => exact ⟨_, rfl, .map (hsame.trans h) ht⟩
  | list h ht => exact ⟨_, rfl, .list (hsame.trans h) ht⟩

lemma addEntry_eq_some :
    addEntry name v es = some u ↔ named name es = none ∧ u = put (.text name) v es := by
  rw [addEntry, ite_none_left_eq_some, not_isSome_iff_eq_none]
  refine and_congr_right fun hnone => ?_
  rw [put_of_named_eq_none hnone, some.injEq, eq_comm]

lemma appendTable_eq_some : appendTable name es = some u ↔
    ∃ vs, (named name es = none ∧ vs = [] ∨ named name es = some (.list vs)) ∧
      u = put (.text name) (.list (vs ++ [.map []])) es := by
  unfold appendTable
  rcases hnamed : named name es with _ | v
  · simp [put_of_named_eq_none hnamed, eq_comm]
  · cases v <;> simp [eq_comm]

/-! ## Twins -/

/-- Values that differ in one array, which is `xs` in one and `ys` in the other. A key leads to it by
tables, and by tables in arrays; `last` says whether these are the last ones in their arrays. -/
inductive Twin (xs ys : List Value) : Bool → List String → Value → Value → Prop
  | array : Twin xs ys true [] (.list xs) (.list ys)
  | table {last : Bool} {k : String} {ks : List String} {es es' : Entries} {v w : Value}
      (hv : named k es = some v) (hw : named k es' = some w) (h : Twin xs ys last ks v w)
      (hrest : ∀ j, j ≠ k → named j es' = named j es) : Twin xs ys last (k :: ks) (.map es) (.map es')
  | member {last : Bool} {k : String} {ks : List String} {es es' : Entries} (vs us : List Value)
      (h : Twin xs ys last (k :: ks) (.map es) (.map es')) :
      Twin xs ys (last && us.isEmpty) (k :: ks) (.list (vs ++ .map es :: us)) (.list (vs ++ .map es' :: us))

namespace Twin

lemma put (h : Twin xs ys last ks v w) (hrest : ∀ j, j ≠ k → named j es' = named j es) :
    Twin xs ys last (k :: ks) (.map (put (.text k) v es)) (.map (put (.text k) w es')) := by
  refine .table (named_put_self k v es) (named_put_self k w es') h fun j hj => ?_
  rw [named_put_of_ne hj, named_put_of_ne hj, hrest j hj]

lemma put_of_ne (h : Twin xs ys last (k :: ks) (.map es) (.map es')) (hname : name ≠ k) (v : Value) :
    Twin xs ys last (k :: ks) (.map (Value.put (.text name) v es))
      (.map (Value.put (.text name) v es')) := by
  cases h with
  | table hv hw hvw hrest =>
    refine .table ((named_put_of_ne hname.symm v es).trans hv)
      ((named_put_of_ne hname.symm v es').trans hw) hvw fun j hj => ?_
    by_cases hjname : j = name
    · rw [hjname, named_put_self, named_put_self]
    · rw [named_put_of_ne hjname, named_put_of_ne hjname, hrest j hj]

lemma exists_map (h : Twin xs ys last ks (.map es) w) : ∃ es', w = .map es' := by
  cases h with
  | table => exact ⟨_, rfl⟩

/-- A table that is not the last one of its array. -/
lemma before (h : Twin xs ys last (k :: ks) (.map es) (.map es')) (vs us : List Value) (z : Value) :
    Twin xs ys false (k :: ks) (.list (vs ++ .map es :: us ++ [z])) (.list (vs ++ .map es' :: us ++ [z])) := by
  have htwin := h.member vs (us ++ [z])
  cases us <;> simpa using htwin

end Twin

/-- A change that is made in a table is made in a twin of the table, which stays a twin, unless it comes
to the array on a way that starts with `rest`. If it `moves`, then there is a new last table. -/
def Carries (xs ys : List Value) (moves : Bool) (rest : List String)
    (change : Entries → Option Entries) : Prop :=
  ∀ ⦃last : Bool⦄ ⦃path : List String⦄ ⦃es es' u : Entries⦄,
    Twin xs ys last path (.map es) (.map es') → (last = true → ¬ path <+: rest) → change es = some u →
    ∃ last' u', change es' = some u' ∧ Twin xs ys last' path (.map u) (.map u') ∧
      (last' = true → last = true ∧ (moves = true → ¬ rest <+: path))

lemma carries_emptyTable : Carries xs ys false [] emptyTable := by
  intro last path es es' u htwin _ hu
  cases hu
  exact ⟨last, es', rfl, htwin, fun h => ⟨h, nofun⟩⟩

lemma carries_addEntry (name : String) (v : Value) : Carries xs ys false [] (addEntry name v) := by
  intro last path es es' u htwin _ hu
  obtain ⟨hnone, rfl⟩ := addEntry_eq_some.mp hu
  have htable := htwin
  cases htable with
  | table hv hw hvw hrest =>
    rename_i k _ _ _ _
    have hname : name ≠ k := by
      rintro rfl
      exact absurd (hnone.symm.trans hv) nofun
    exact ⟨last, _, addEntry_eq_some.mpr ⟨(hrest name hname).trans hnone, rfl⟩, htwin.put_of_ne hname v,
      fun h => ⟨h, nofun⟩⟩

lemma carries_appendTable (name : String) : Carries xs ys true [name] (appendTable name) := by
  intro last path es es' u htwin hclear hu
  obtain ⟨vs, hvs, rfl⟩ := appendTable_eq_some.mp hu
  have htable := htwin
  cases htable with
  | table hv hw hvw hrest =>
    rename_i k ks v w
    by_cases hname : name = k
    · subst hname
      obtain rfl : v = .list vs := by
        obtain ⟨hnone, -⟩ | hlist := hvs
        · exact absurd (hnone.symm.trans hv) nofun
        · exact some.inj (hv.symm.trans hlist)
      cases hvw with
      | array => exact absurd (prefix_refl _) (hclear rfl)
      | member vs us hmember =>
        exact ⟨false, _, appendTable_eq_some.mpr ⟨_, .inr hw, rfl⟩, .put (hmember.before vs us _) hrest, nofun⟩
    · refine ⟨last, _, appendTable_eq_some.mpr ⟨vs, ?_, rfl⟩, htwin.put_of_ne hname _, fun h => ⟨h, fun _ => ?_⟩⟩
      · rw [hrest name hname]
        exact hvs
      · exact fun hstart => hname (cons_prefix_cons.mp hstart).1

lemma Carries.within (h : Carries xs ys moves rest change) (key : List String) :
    Carries xs ys moves (key ++ rest) (within true change key) := by
  induction key with
  | nil => exact h
  | cons j key ih =>
    intro last path es es' u htwin hclear hu
    have htable := htwin
    cases htable with
    | table hv hw hvw hrest =>
      rename_i k ks v w
      rw [within_cons_iff] at hu
      by_cases hj : j = k
      · subst hj
        have hclear' : last = true → ¬ ks <+: key ++ rest :=
          fun hlast hstart => hclear hlast (cons_prefix_cons.mpr ⟨rfl, hstart⟩)
        have hmoved {last' : Bool} (h : last' = true → last = true ∧ (moves = true → ¬ key ++ rest <+: ks)) :
            last' = true → last = true ∧ (moves = true → ¬ j :: key ++ rest <+: j :: ks) :=
          fun hlast => (h hlast).imp_right fun hnot hmoves hstart =>
            hnot hmoves (cons_prefix_cons.mp hstart).2
        cases hu with
        | fresh hnone _ => exact absurd (hnone.symm.trans hv) nofun
        | map hnamed ht =>
          obtain rfl := some.inj (hv.symm.trans hnamed)
          obtain ⟨inner', rfl⟩ := hvw.exists_map
          obtain ⟨last', t', ht', htwin', hlast'⟩ := ih hvw hclear' ht
          exact ⟨last', _, within_cons_iff.mpr (.map hw ht'), .put htwin' hrest, hmoved hlast'⟩
        | list hnamed ht =>
          rename_i vs inner t
          generalize hl : vs ++ [.map inner] = l at hnamed
          obtain rfl := some.inj (hv.symm.trans hnamed)
          cases hvw with
          | array => exact absurd (cons_prefix_cons.mpr ⟨rfl, nil_prefix⟩) (hclear rfl)
          | member vs' us hmember =>
            rcases us.eq_nil_or_concat with rfl | ⟨us, z, rfl⟩
            · obtain ⟨rfl, hinner⟩ := append_inj' hl rfl
              cases hinner
              simp only [isEmpty_nil, Bool.and_true] at hclear' hmoved ⊢
              obtain ⟨last', t', ht', htwin', hlast'⟩ := ih hmember hclear' ht
              refine ⟨last', _, within_cons_iff.mpr (.list hw ht'), .put ?_ hrest, hmoved hlast'⟩
              simpa using htwin'.member vs []
            · -- the array is in a table in front of the last one, which is changed
              rw [concat_eq_append, ← cons_append, ← append_assoc] at hl
              obtain ⟨rfl, hz⟩ := append_inj' hl rfl
              obtain rfl : z = .map inner := by simpa using hz.symm
              rw [concat_eq_append, ← cons_append, ← append_assoc] at hw
              exact ⟨false, _, within_cons_iff.mpr (.list hw ht), .put (hmember.before vs' us _) hrest, nofun⟩
      · obtain ⟨t, rfl, hu'⟩ := hu.transfer (hrest j hj)
        refine ⟨last, _, within_cons_iff.mpr hu', htwin.put_of_ne hj t, fun h => ⟨h, fun _ hstart => ?_⟩⟩
        exact hj (cons_prefix_cons.mp hstart).1

/-! ## Steps around the array -/

lemma isFrozen_iff {frozen : List (List String)} :
    isFrozen frozen key ↔ ∃ f ∈ frozen, f <+: key := by
  simp [isFrozen]

lemma run_eq_some : s.run r = some r' ↔
    s.isRefused r = false ∧ ∃ es, s.change r = some es ∧ s.after r es = r' := by
  simp [run]

/-- Readings that differ in one array, to which no key leads that can still be used. -/
structure Twins (xs ys : List Value) (path : List String) (r r' : Reading) : Prop where
  same : r' = { r with entries := r'.entries }
  twin : ∃ last, Twin xs ys last path (.map r.entries) (.map r'.entries) ∧
    (last = true → isFrozen r.frozen path = true)

lemma not_prefix_of_not_isFrozen {frozen : List (List String)} (h : isFrozen frozen path)
    (hkey : ¬ isFrozen frozen key) : ¬ path <+: key := by
  obtain ⟨f, hf, hpath⟩ := isFrozen_iff.mp h
  exact fun hstart => hkey (isFrozen_iff.mpr ⟨f, hf, hpath.trans hstart⟩)

lemma Twins.changed {r₁ : Reading} (h : Twins xs ys path r r₁) (hopen : ¬ s.isRefused r)
    (hes : s.change r = some es) :
    ∃ es₁ last, s.change r₁ = some es₁ ∧ Twin xs ys last path (.map es) (.map es₁) ∧
      (last = true → isFrozen (s.after r es).frozen path = true) := by
  obtain ⟨hsame, last, htwin, hsealed⟩ := h
  have hclear {key : List String} (hkey : ¬ isFrozen r.frozen key) (hlast : last = true) : ¬ path <+: key :=
    not_prefix_of_not_isFrozen (hsealed hlast) hkey
  cases s with
  | table key =>
    rw [isRefused, Bool.or_eq_true, not_or] at hopen
    obtain ⟨last', es₁, hes₁, htwin', hlast'⟩ := (carries_emptyTable.within key) htwin
      (by rw [append_nil]; exact hclear hopen.2) hes
    exact ⟨es₁, last', hes₁, htwin', fun h => hsealed (hlast' h).1⟩
  | arrayTable key =>
    obtain ⟨name, hname, hes⟩ := bind_eq_some_iff.mp hes
    have hkey := dropLast_append_getLast? _ hname
    obtain ⟨last', es₁, hes₁, htwin', hlast'⟩ := ((carries_appendTable name).within key.dropLast) htwin
      (by rw [hkey]; exact hclear hopen) hes
    refine ⟨es₁, last', ?_, htwin', fun h => ?_⟩
    · rw [change, hname, bind_some]
      exact hes₁
    · obtain ⟨hlast, hmoved⟩ := hlast' h
      rw [hkey] at hmoved
      obtain ⟨f, hf, hpath⟩ := isFrozen_iff.mp (hsealed hlast)
      refine isFrozen_iff.mpr ⟨f, mem_filter.mpr ⟨hf, ?_⟩, hpath⟩
      rw [Bool.not_eq_true', Bool.eq_false_iff, Ne, isPrefixOf_iff_prefix]
      exact fun hstart => hmoved rfl (hstart.trans hpath)
  | entry key v =>
    rw [isRefused, Bool.or_eq_true, not_or] at hopen
    have hheader : r₁.header = r.header := by rw [hsame]
    simp only [Step.change, putEntry, hheader] at hes ⊢
    split at hes
    · obtain ⟨last', es₁, hes₁, htwin', hlast'⟩ := ((carries_addEntry _ v).within _) htwin
        (by rw [append_nil]; exact hclear hopen.2) hes
      refine ⟨es₁, last', hes₁, htwin', fun h => ?_⟩
      obtain ⟨f, hf, hpath⟩ := isFrozen_iff.mp (hsealed (hlast' h).1)
      refine isFrozen_iff.mpr ⟨f, ?_, hpath⟩
      dsimp only [Step.after]
      split
      · exact mem_cons_of_mem _ hf
      · exact hf
    · cases hes

lemma Twins.run {r₁ : Reading} (h : Twins xs ys path r r₁) (hrun : s.run r = some r') :
    ∃ r₁', s.run r₁ = some r₁' ∧ Twins xs ys path r' r₁' := by
  obtain ⟨hopen, es, hes, rfl⟩ := run_eq_some.mp hrun
  obtain ⟨es₁, last, hes₁, htwin, hsealed⟩ := h.changed (by simp [hopen]) hes
  have hopen₁ : s.isRefused r₁ = false := by
    rw [← hopen, h.same]
    cases s <;> rfl
  refine ⟨s.after r₁ es₁, run_eq_some.mpr ⟨hopen₁, es₁, hes₁, rfl⟩, ?_, last, ?_, hsealed⟩
  · rw [h.same]
    cases s <;> rfl
  · cases s <;> exact htwin

lemma runSteps_cons (r : Reading) (s : Step) (ss : List Step) :
    runSteps r (s :: ss) = (s.run r).bind (runSteps · ss) := foldlM_cons

lemma Twins.runSteps {r₁ : Reading} (h : Twins xs ys path r r₁) (hrun : runSteps r ss = some r') :
    ∃ r₁', runSteps r₁ ss = some r₁' ∧ Twins xs ys path r' r₁' := by
  induction ss generalizing r r₁ with
  | nil =>
    cases hrun
    exact ⟨r₁, rfl, h⟩
  | cons s ss ih =>
    rw [runSteps_cons] at hrun
    obtain ⟨q, hs, hrun⟩ := bind_eq_some_iff.mp hrun
    obtain ⟨q₁, hs₁, hq⟩ := h.run hs
    obtain ⟨r₁', hrun₁, hr₁'⟩ := ih hq hrun
    exact ⟨r₁', by rw [runSteps_cons, hs₁, bind_some, hrun₁], hr₁'⟩

lemma twin_of_within (h : within true (addEntry name (.list xs)) key es = some u) (ys : List Value) :
    ∃ u', within true (addEntry name (.list ys)) key es = some u' ∧
      Twin xs ys true (key ++ [name]) (.map u) (.map u') := by
  induction key generalizing es u with
  | nil =>
    obtain ⟨hnone, rfl⟩ := addEntry_eq_some.mp h
    exact ⟨_, addEntry_eq_some.mpr ⟨hnone, rfl⟩, .put .array fun _ _ => rfl⟩
  | cons k key ih =>
    rw [within_cons_iff] at h
    simp only [within_cons_iff]
    cases h with
    | fresh hnamed ht =>
      obtain ⟨t', ht', htwin⟩ := ih ht
      exact ⟨_, .fresh hnamed ht', .put htwin fun _ _ => rfl⟩
    | map hnamed ht =>
      obtain ⟨t', ht', htwin⟩ := ih ht
      exact ⟨_, .map hnamed ht', .put htwin fun _ _ => rfl⟩
    | list hnamed ht =>
      obtain ⟨t', ht', htwin⟩ := ih ht
      refine ⟨_, .list hnamed ht', .put ?_ fun _ _ => rfl⟩
      cases key <;> simpa using htwin.member _ []

/-- A document in which another array stands is read as well, and only the array differs. -/
lemma exists_twin (h : runSteps r (.entry [name] (.list xs) :: ss) = some r') (ys : List Value) :
    ∃ r₁', runSteps r (.entry [name] (.list ys) :: ss) = some r₁' ∧
      Twins xs ys (r.header ++ [name]) r' r₁' := by
  have hput (v : Value) : (entry [name] v).change r =
      within true (addEntry name v) r.header r.entries := by
    simp [change, putEntry]
  rw [runSteps_cons] at h
  obtain ⟨q, hadd, hrun⟩ := bind_eq_some_iff.mp h
  obtain ⟨hopen, es, hes, rfl⟩ := run_eq_some.mp hadd
  rw [hput] at hes
  obtain ⟨es₁, hes₁, htwin⟩ := twin_of_within hes ys
  have htwins : Twins xs ys (r.header ++ [name]) ((entry [name] (.list xs)).after r es)
      ((entry [name] (.list ys)).after r es₁) := by
    refine ⟨rfl, true, htwin, fun _ => isFrozen_iff.mpr ⟨r.header ++ [name], ?_, prefix_refl _⟩⟩
    simp [Step.after, isClosed]
  obtain ⟨r₁', hrun₁, hr₁'⟩ := htwins.runSteps hrun
  have hadd₁ : (entry [name] (.list ys)).run r = some ((entry [name] (.list ys)).after r es₁) :=
    run_eq_some.mpr ⟨hopen, es₁, (hput _).trans hes₁, rfl⟩
  exact ⟨r₁', by rw [runSteps_cons, hadd₁, bind_some, hrun₁], hr₁'⟩

/-! ## What the array does not change -/

/-- The value that a path of names leads to, by tables only. -/
def valueAt : List String → Value → Option Value
  | [], v => some v
  | k :: ks, .map es => (named k es).bind (valueAt ks)
  | _ :: _, _ => none

lemma valueAt_cons (k : String) (ks : List String) (es : Entries) :
    valueAt (k :: ks) (.map es) = (named k es).bind (valueAt ks) := rfl

namespace Twin

/-- What a path leads to is the same in twins, or the array is in it. -/
lemma valueAt_cases (h : Twin xs ys last key v w) (path : List String) :
    valueAt path w = valueAt path v ∨ ∃ last' ks v' w', key = path ++ ks ∧
      valueAt path v = some v' ∧ valueAt path w = some w' ∧ Twin xs ys last' ks v' w' := by
  induction path generalizing last key v w with
  | nil => exact .inr ⟨last, key, v, w, rfl, rfl, rfl, h⟩
  | cons j path ih =>
    cases h with
    | array => exact .inl rfl
    | member => exact .inl rfl
    | table hv hw hvw hrest =>
      rename_i k ks _ _ v w
      by_cases hj : j = k
      · subst hj
        simp only [valueAt_cons, hv, hw, bind_some, cons_append, cons.injEq, true_and]
        exact ih hvw
      · left
        rw [valueAt_cons, valueAt_cons, hrest j hj]

lemma valueAt_self (h : Twin xs ys last key v w) :
    (valueAt key v = some (.list xs) ∧ valueAt key w = some (.list ys)) ∨
      ∃ path k ks vs, key = path ++ k :: ks ∧ valueAt path v = some (.list vs) := by
  induction h with
  | array => exact .inl ⟨rfl, rfl⟩
  | member => exact .inr ⟨[], _, _, _, rfl, rfl⟩
  | table hv hw _ _ ih =>
    rename_i k _ _ _ _ _ _ _
    simp only [valueAt_cons, hv, hw, bind_some]
    refine ih.imp_right fun ⟨path, j, ks, vs, hkey, hpath⟩ => ⟨k :: path, j, ks, vs, by rw [hkey]; rfl, ?_⟩
    rw [valueAt_cons, hv, bind_some, hpath]

end Twin

end AssetCatalog.Toml
