import AssetCatalog.Readme.Page
import AssetCatalog.Proofs.CompiledEntrypoints

/-!
# The interface of an asset

Each regular and keyword parameter is an input with its own default, although the defaults are looked up
by place. That there is none is not kept.
-/

namespace AssetCatalog

open List

variable {notes : List (String × String)}

namespace Source

/-- Parameters of a function: the regular and keyword ones have names of their own, and of those that
can be given by place none without a default comes behind one with a default. -/
structure Parameters.IsSignature (ps : Parameters) : Prop where
  distinct : ((ps.regular ++ ps.keyword).map Parameter.name).Nodup
  last : (ps.positional ++ ps.regular).Pairwise fun p q => p.default.isSome → q.default.isSome

lemma filterMap_default_of_all {ps : List Parameter} (h : ∀ p ∈ ps, p.default.isSome) :
    (ps.filterMap Parameter.default).map some = ps.map Parameter.default := by
  induction ps with
  | nil => rfl
  | cons p ps ih =>
    obtain ⟨hp, hps⟩ := forall_mem_cons.mp h
    obtain ⟨e, he⟩ := Option.isSome_iff_exists.mp hp
    simp [he, ih hps]

lemma map_default {ps : List Parameter}
    (h : ps.Pairwise fun p q => p.default.isSome → q.default.isSome) :
    ps.map Parameter.default =
      List.replicate (ps.length - (ps.filterMap Parameter.default).length) none ++
        (ps.filterMap Parameter.default).map some := by
  induction ps with
  | nil => rfl
  | cons p ps ih =>
    obtain ⟨hp, hps⟩ := pairwise_cons.mp h
    cases hd : p.default with
    | none =>
      have hlength := length_filterMap_le Parameter.default ps
      rw [filterMap_cons_none hd, length_cons, Nat.succ_sub hlength, replicate_succ,
        map_cons, hd, ih hps, cons_append]
    | some e =>
      have hall := filterMap_default_of_all fun q hq => hp q hq (by simp [hd])
      have hlength := congrArg List.length hall
      simp only [length_map] at hlength
      simp [hd, hlength, hall]

end Source

namespace Readme

open Source

section

variable {ps : Parameters}

/-- With `m` defaults and `n` regular parameters, the one at `i` has the default at `i + m - n`, if
there is such a place. -/
lemma default_regular (h : ps.IsSignature) {i : Nat} (hi : i < ps.regular.length) :
    (i + (placedDefaults ps).length < ps.regular.length → ps.regular[i].default = none) ∧
      (ps.regular.length ≤ i + (placedDefaults ps).length →
        ∃ e, (placedDefaults ps)[i + (placedDefaults ps).length - ps.regular.length]? = some e ∧
          ps.regular[i].default = some e) := by
  have hplaced := congrArg (·[ps.positional.length + i]?) (map_default h.last)
  have hlength := length_filterMap_le Parameter.default (ps.positional ++ ps.regular)
  change _ = (List.replicate (_ - (placedDefaults ps).length) none ++ (placedDefaults ps).map some)[_]?
    at hplaced
  change (placedDefaults ps).length ≤ _ at hlength
  rw [length_append] at hplaced hlength
  simp only [getElem?_map, getElem?_append_right (Nat.le_add_right _ i), Nat.add_sub_cancel_left,
    getElem?_eq_getElem hi, Option.map_some] at hplaced
  constructor
  · intro hnone
    rw [getElem?_append_left (by simp; omega), getElem?_replicate_of_lt (by omega)] at hplaced
    exact Option.some.inj hplaced
  · intro hsome
    have hplace : i + (placedDefaults ps).length - ps.regular.length < (placedDefaults ps).length := by
      omega
    rw [getElem?_append_right (by simp; omega), length_replicate,
      show ps.positional.length + i - (ps.positional.length + ps.regular.length -
        (placedDefaults ps).length) = i + (placedDefaults ps).length - ps.regular.length by omega,
      getElem?_map, getElem?_eq_getElem hplace, Option.map_some] at hplaced
    exact ⟨_, getElem?_eq_getElem hplace, Option.some.inj hplaced⟩

lemma regularDefault_eq (h : ps.IsSignature) {i : Nat} (hi : i < ps.regular.length) :
    regularDefault ps i = .ok ps.regular[i].default := by
  obtain ⟨hnone, hsome⟩ := default_regular h hi
  unfold regularDefault
  dsimp only
  split
  · next hlt => rw [hnone (by omega)]; rfl
  · next hle =>
    obtain ⟨e, he, hdefault⟩ := hsome (by omega)
    rw [show ((i : Int) - (ps.regular.length - (placedDefaults ps).length)).toNat =
      i + (placedDefaults ps).length - ps.regular.length by omega, he, hdefault]
    rfl

lemma putInput_of_notMem {i : Input} {xs : List Input} (h : i.name ∉ xs.map Input.name) :
    putInput i xs = xs ++ [i] := by
  induction xs with
  | nil => rfl
  | cons x xs ih =>
    rw [map_cons, mem_cons, not_or] at h
    rw [putInput, if_neg (Ne.symm h.1), ih h.2, cons_append]

lemma foldl_putInput (xs acc : List Input) (h : ((acc ++ xs).map Input.name).Nodup) :
    xs.foldl (fun acc i => putInput i acc) acc = acc ++ xs := by
  induction xs generalizing acc with
  | nil => simp
  | cons x xs ih =>
    have hx : x.name ∉ acc.map Input.name := by
      rw [map_append, map_cons, nodup_middle] at h
      exact fun hx => (nodup_cons.mp h).1 (mem_append_left _ hx)
    rw [foldl_cons, putInput_of_notMem hx, ih (acc ++ [x]) (by simpa using h), append_assoc,
      singleton_append]

lemma name_of_inputOf {p : Parameter} {e : Option Expr} {x : Input}
    (h : inputOf notes p e = .ok x) : x.name = p.name := by
  simp only [inputOf, except_bind_eq_ok, except_pure_eq_ok] at h
  obtain ⟨_, -, _, -, rfl⟩ := h
  rfl

lemma default_of_inputOf {p : Parameter} {e : Option Expr} {x : Input}
    (h : inputOf notes p e = .ok x) : defaultValue e = .ok x.default := by
  simp only [inputOf, except_bind_eq_ok, except_pure_eq_ok] at h
  obtain ⟨_, -, v, hv, rfl⟩ := h
  exact hv

lemma map_name_of_mapM {params : List Parameter} {xs : List Input}
    (h : params.mapM (fun p => inputOf notes p p.default) = .ok xs) :
    xs.map Input.name = params.map Parameter.name := by
  rw [mapM_eq_ok] at h
  induction h with
  | nil => rfl
  | cons hx _ ih => rw [map_cons, map_cons, name_of_inputOf hx, ih]

lemma inputsOf_eq_mapM (h : ps.IsSignature) (notes : List (String × String)) :
    inputsOf notes ps = (ps.regular ++ ps.keyword).mapM fun p => inputOf notes p p.default := by
  have hregular : (ps.regular.zipIdx.mapM fun x => regularDefault ps x.2 >>= inputOf notes x.1) =
      ps.regular.mapM fun p => inputOf notes p p.default := by
    calc _ = ps.regular.zipIdx.mapM fun x => inputOf notes x.1 x.1.default := by
          apply mapM_congr
          rintro ⟨p, i⟩ hx
          obtain ⟨-, hi, hp⟩ := mem_zipIdx hx
          rw [Nat.zero_add] at hi
          rw [regularDefault_eq h hi, except_ok_bind, hp]
          rfl
      _ = (ps.regular.zipIdx.map Prod.fst).mapM fun p => inputOf notes p p.default := by
          rw [mapM_map]
          rfl
      _ = _ := by rw [zipIdx_map_fst]
  change (ps.regular.zipIdx.mapM fun x => regularDefault ps x.2 >>= inputOf notes x.1) >>= _ = _
  rw [hregular, mapM_append]
  rcases hxs : ps.regular.mapM fun p => inputOf notes p p.default with e | xs
  · rfl
  rcases hys : ps.keyword.mapM fun p => inputOf notes p p.default with e | ys
  · rfl
  have hnames : ((xs ++ ys).map Input.name).Nodup := by
    rw [map_append, map_name_of_mapM hxs, map_name_of_mapM hys, ← map_append]
    exact h.distinct
  rw [except_ok_bind, except_ok_bind, foldl_putInput (xs ++ ys) [] hnames]
  rfl

end

lemma inputs_of_interfaceOf {place : String} {d : Definition} {i : Interface}
    (hd : d.parameters.IsSignature) (h : interfaceOf place d = .ok i) :
    List.Forall₂ (fun p x => inputOf i.summary.parameters p p.default = .ok x)
      (d.parameters.regular ++ d.parameters.keyword) i.inputs := by
  simp only [interfaceOf, except_bind_eq_ok, except_pure_eq_ok] at h
  obtain ⟨summary, -, inputs, hinputs, output, -, rfl⟩ := h
  rwa [inputsOf_eq_mapM hd, mapM_eq_ok] at hinputs

/-- The inputs are the regular and then the keyword parameters in their order. No default is looked up
outside the list of defaults, and the one found is that of the parameter. -/
theorem interfaceOf_binds_defaults {d : Definition} (hd : d.parameters.IsSignature) :
    (∀ (i : Nat) (hi : i < d.parameters.regular.length),
      regularDefault d.parameters i = .ok d.parameters.regular[i].default ∧
      (i + (placedDefaults d.parameters).length < d.parameters.regular.length →
        d.parameters.regular[i].default = none) ∧
      (d.parameters.regular.length ≤ i + (placedDefaults d.parameters).length →
        ∃ e, (placedDefaults d.parameters)[
            i + (placedDefaults d.parameters).length - d.parameters.regular.length]? = some e ∧
          d.parameters.regular[i].default = some e)) ∧
    (∀ notes, inputsOf notes d.parameters =
      (d.parameters.regular ++ d.parameters.keyword).mapM fun p => inputOf notes p p.default) ∧
    ∀ place i, interfaceOf place d = .ok i →
      i.inputs.map Input.name =
          (d.parameters.regular ++ d.parameters.keyword).map Parameter.name ∧
        List.Forall₂ (fun p x => defaultValue p.default = .ok x.default)
          (d.parameters.regular ++ d.parameters.keyword) i.inputs := by
  refine ⟨fun i hi => ⟨regularDefault_eq hd hi, default_regular hd hi⟩, inputsOf_eq_mapM hd,
    fun place i h => ?_⟩
  have hinputs := inputs_of_interfaceOf hd h
  exact ⟨map_name_of_mapM (mapM_eq_ok.mpr hinputs), hinputs.imp fun _ _ => default_of_inputOf⟩

def soleFile (source : String) : World where
  tree := { files := [(["component.py"], .text source)], folders := [[]] }

def loader (doc : String) (ps : Parameters) : Definition :=
  ⟨"load", [.name "component"], ps, none, [.expression (.constant (.text doc) false default)]⟩

def literal (v : Value) : Option Expr := some (.constant v false default)

def mixedParameters : Parameters :=
  .mk [.mk "p" none (literal (.int 0))] [.mk "a" none (literal (.int 1)), .mk "b" none (literal (.int 2))]
    none [.mk "k" none none, .mk "m" none (literal (.int 3))] none

theorem interfaceOf_binds_defaults_mixed :
    regularDefault mixedParameters 0 = .ok (literal (.int 1)) ∧
      (inputsOf [] mixedParameters).map (List.map fun x => (x.name, x.default)) =
        .ok [("a", .int 1), ("b", .int 2), ("k", .null), ("m", .int 3)] := by
  have hsignature : mixedParameters.IsSignature := ⟨by decide, by decide⟩
  obtain ⟨hregular, hinputs, -⟩ := interfaceOf_binds_defaults (d := loader "" mixedParameters) hsignature
  refine ⟨(hregular 0 (by decide)).1, ?_⟩
  have h := hinputs []
  change inputsOf [] mixedParameters = _ at h
  rw [h]
  rfl

lemma defaultCell_of_some {r : Row} {v : Value} (h : r.default = some v) :
    r.defaultCell ≠ .ok "Required" := by
  rw [Row.defaultCell, h]
  split
  · next hr => cases hr
  · simp
  · intro hcell
    simp only [except_bind_eq_ok, except_pure_eq_ok] at hcell
    obtain ⟨t, -, ht⟩ := hcell
    have hhead := congrArg (fun s => s.toList.head?) ht
    simp at hhead

/-- On the page of an asset no default cell says that a parameter is required. A parameter without a
default is shown like one whose default is `None`. -/
theorem defaultCell_of_interfaceOf {place : String} {d : Definition} {i : Interface}
    (hd : d.parameters.IsSignature) (h : interfaceOf place d = .ok i) :
    List.Forall₂ (fun p r => r.name = p.name ∧
        ((r.defaultCell = .ok "Required" ↔ p.default = none) ↔ p.default.isSome) ∧
        ((∀ e ∈ p.default, ∃ marked span, e = .constant .null marked span) →
          r.defaultCell = .ok "`None`"))
      (d.parameters.regular ++ d.parameters.keyword) i.description.rows := by
  rw [Interface.description, forall₂_map_right_iff]
  refine (inputs_of_interfaceOf hd h).imp fun p x hx => ⟨name_of_inputOf hx, ?_, fun hnull => ?_⟩
  · have hcell := defaultCell_of_some (r := ⟨x.name, .text x.type, some x.default, x.description⟩) rfl
    cases p.default <;> simp [hcell]
  · have hdefault : x.default = .null := by
      have hvalue := default_of_inputOf hx
      cases hp : p.default with
      | none =>
        rw [hp] at hvalue
        exact (Except.ok.inj hvalue).symm
      | some e =>
        obtain ⟨marked, span, rfl⟩ := hnull e hp
        rw [hp] at hvalue
        exact (Except.ok.inj hvalue).symm
    rw [hdefault]
    rfl

def optionalParameters : Parameters :=
  .mk [] [.mk "path" none none, .mk "limit" none (literal .null)] none [] none

def optionalInterface : Interface where
  name := .text "load"
  docstring := "Loads."
  summary := ⟨"Loads.", [], some ""⟩
  inputs := [⟨"path", "Any", .null, .text ""⟩, ⟨"limit", "Any", .null, .text ""⟩]
  output := none

lemma isSignature_optional : optionalParameters.IsSignature := ⟨by decide, by decide⟩

lemma interfaceOf_optional :
    interfaceOf "component" (loader "Loads." optionalParameters) = .ok optionalInterface := rfl

theorem defaultCell_of_interfaceOf_limit :
    ∃ r ∈ optionalInterface.description.rows, r.name = "limit" ∧ r.defaultCell = .ok "`None`" := by
  have h := defaultCell_of_interfaceOf (d := loader "Loads." optionalParameters) isSignature_optional
    interfaceOf_optional
  obtain ⟨-, hrest⟩ := forall₂_cons.mp h
  obtain ⟨⟨hname, -, hcell⟩, -⟩ := forall₂_cons.mp hrest
  exact ⟨_, .tail _ (.head _), hname, hcell fun e he => ⟨false, default, (Option.some.inj he).symm⟩⟩

/-- A parameter that has to be given is shown with a default. -/
theorem defaultCell_of_interfaceOf_path :
    optionalParameters.regular.map Parameter.default = [none, literal .null] ∧
      optionalInterface.description.rows.map Row.defaultCell = [.ok "`None`", .ok "`None`"] :=
  ⟨rfl, rfl⟩

def Marked (type : String) (d : Definition) : Prop := d.decorators.any (isDecoratorOf type) = true

lemma extractInterface_apply {p : Path} {site : Site} {w : World} {body : List Stmt} {f : String}
    {d : Definition} (hbody : Asset.sourceAt site w.tree p = .ok body) (hd : definitionOf f body = some d) :
    (extractInterface p f site w).1 = (interfaceOf p.name d).map some := by
  rw [extractInterface, Run.tryCatch_apply, Run.bind_apply, Asset.parseFile_apply, hbody]
  dsimp only
  rw [hd]
  dsimp only
  cases interfaceOf p.name d <;> rfl

/-- If a marked function is found, what is extracted under its name is that of the first definition of
the name. This one is marked exactly if none of the definitions before the one found has the name. -/
theorem marked_of_findFunction {p : Path} {type f : String} {site : Site} {w : World}
    (h : (findFunction p type site w).1 = .ok (some f)) :
    ∃ body front e rest d, Asset.sourceAt site w.tree p = .ok body ∧
      Stmt.definitions body = front ++ e :: rest ∧ e.name = f ∧ Marked type e ∧
      (∀ x ∈ front, ¬Marked type x) ∧ definitionOf f body = some d ∧
      (extractInterface p f site w).1 = (interfaceOf p.name d).map some ∧
      (Marked type d ↔ ∀ x ∈ front, x.name ≠ f) ∧ (Marked type d → d = e) := by
  rw [findFunction, Run.bind_apply, Run.attempt_apply, Asset.parseFile_apply] at h
  rcases hbody : Asset.sourceAt site w.tree p with err | body
  · rw [hbody] at h
    cases h
  rw [hbody] at h
  obtain ⟨e, he, hname⟩ := Option.map_eq_some_iff.mp (Except.ok.inj h)
  obtain ⟨hmarked, front, rest, hdefinitions, hfront⟩ := find?_eq_some_iff_append.mp he
  have hfirst : ∃ d, definitionOf f body = some d ∧
      (Marked type d ↔ ∀ x ∈ front, x.name ≠ f) ∧ (Marked type d → d = e) := by
    rw [definitionOf, hdefinitions, find?_append]
    rcases hfind : front.find? fun x => x.name = f with _ | d
    · have hnone : ∀ x ∈ front, x.name ≠ f := by simpa using hfind
      exact ⟨e, by simp [hfind, hname], iff_of_true hmarked hnone, fun _ => rfl⟩
    · have hmem := mem_of_find?_eq_some hfind
      have hd : ¬Marked type d := by simpa [Marked] using hfront d hmem
      have hsame : d.name = f := by simpa using find?_some hfind
      exact ⟨d, by simp [hfind], iff_of_false hd fun hall => hall d hmem hsame, fun hm => absurd hm hd⟩
  obtain ⟨d, hd, hiff, heq⟩ := hfirst
  exact ⟨body, front, e, rest, d, rfl, hdefinitions, hname, hmarked,
    fun x hx => by simpa [Marked] using hfront x hx, hd, extractInterface_apply hbody hd, hiff, heq⟩

theorem marked_of_findFunction_load : ∃ body front e rest d,
    Asset.sourceAt Run.rootSite (soleFile "@component\ndef load(url):\n  \"Loads.\"\n").tree
      ⟨"", ["component.py"]⟩ = .ok body ∧
    Stmt.definitions body = front ++ e :: rest ∧ definitionOf "load" body = some d ∧
    (Marked "component" d ↔ ∀ x ∈ front, x.name ≠ "load") := by
  have hfound := congrArg Prod.fst (Run.eq_ok_of_toOption
    (r := findFunction ⟨"", ["component.py"]⟩ "component" Run.rootSite
      (soleFile "@component\ndef load(url):\n  \"Loads.\"\n")) (a := some "load") (by decide +kernel))
  obtain ⟨body, front, e, rest, d, hbody, hdefinitions, -, -, -, hd, -, hiff, -⟩ :=
    marked_of_findFunction hfound
  exact ⟨body, front, e, rest, d, hbody, hdefinitions, hd, hiff⟩

def twoLoads : List Stmt :=
  [.function "load" [] optionalParameters none [], .function "load" [.name "component"] mixedParameters none []]

theorem marked_of_findFunction_helper : decoratedFunction "component" twoLoads = some "load" ∧
    ∃ d, definitionOf "load" twoLoads = some d ∧ ¬Marked "component" d := by
  have hdefinitions : Stmt.definitions twoLoads =
      [⟨"load", [], optionalParameters, none, []⟩,
        ⟨"load", [.name "component"], mixedParameters, none, []⟩] := by
    rw [Stmt.definitions, mergeSort_of_pairwise]
    · rfl
    · simp [twoLoads, Stmt.definitionsIn, Stmt.definitionsAt]
  rw [decoratedFunction, definitionOf, hdefinitions]
  exact ⟨rfl, _, rfl, by simp [Marked]⟩

end Readme

end AssetCatalog
