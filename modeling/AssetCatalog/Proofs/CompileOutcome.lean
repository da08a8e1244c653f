import AssetCatalog.Proofs.CompileSelection

/-!
# Stopping at the first failure

The check that stops ends with the status of the full one, unless a later target breaks that off.
-/

namespace AssetCatalog

open List

variable {es : List (Value × Value)} {v : Value}

namespace Run

variable {α β : Type} {site : Site} {w : World} {x : Run α} {f : α → Run β} {r : Except Fault α}
  {g : α → Except Fault β}

/-- From a world an operation ends in the given way, and it does nothing but log. -/
def Logs (site : Site) (w : World) (x : Run α) (r : Except Fault α) : Prop :=
  ∃ es, x site w = (r, w.logged es)

namespace Logs

lemma of_eq (h : x site w = (r, w)) : Logs site w x r := ⟨[], by rw [h, World.logged_nil]⟩

lemma ofExcept : Logs site w (Run.ofExcept r) r := of_eq (ofExcept_apply site w r)

lemma log {level : Level} {message : String} : Logs site w (Run.log level message) (.ok ()) :=
  ⟨[⟨level, message⟩], rfl⟩

lemma after {a : α} {r : Except Fault β} (hx : x site w = (.ok a, w)) (hf : Logs site w (f a) r) :
    Logs site w (x >>= f) r := by
  rwa [Logs, bind_of_eq hx]

lemma bind (hx : Logs site w x r) (hf : ∀ a es, r = .ok a → Logs site (w.logged es) (f a) (g a)) :
    Logs site w (x >>= f) (r >>= g) := by
  obtain ⟨es, hes⟩ := hx
  rcases r with e | a
  · exact ⟨es, by rw [bind_apply, hes]; rfl⟩
  · obtain ⟨fs, hfs⟩ := hf a es rfl
    refine ⟨es ++ fs, ?_⟩
    rw [bind_of_eq hes, hfs, World.logged_logged, except_ok_bind]

lemma attempt (hx : Logs site w x r) : Logs site w (Run.attempt x) (.ok r) := by
  obtain ⟨es, hes⟩ := hx
  exact ⟨es, by rw [attempt_apply, hes]⟩

end Logs

/-- In all of the surroundings `S` and from every world an operation ends in the same way, under the
condition `P` with a value, and it does nothing but log. -/
def EndsAlike (S : Set Site) (P : Prop) (x : Run α) : Prop :=
  ∃ r, (P → ∃ a, r = .ok a) ∧ ∀ site ∈ S, ∀ w, Logs site w x r

namespace EndsAlike

variable {S : Set Site} {P : Prop}

lemma ofExcept (h : P → ∃ a, r = .ok a) : EndsAlike S P (ofExcept r) := ⟨r, h, fun _ _ _ => .ofExcept⟩

lemma pure (a : α) : EndsAlike S P (Pure.pure a) := ofExcept (r := .ok a) fun _ => ⟨a, rfl⟩

lemma log (level : Level) (message : String) : EndsAlike S P (Run.log level message) :=
  ⟨.ok (), fun _ => ⟨(), rfl⟩, fun _ _ _ => .log⟩

lemma bind (hx : EndsAlike S P x) (hf : ∀ a, EndsAlike S P (f a)) : EndsAlike S P (x >>= f) := by
  obtain ⟨r, hok, hr⟩ := hx
  choose g hok' hg using hf
  refine ⟨r >>= g, fun hP => ?_, fun site hsite w => (hr site hsite w).bind fun a es _ => hg a site hsite _⟩
  obtain ⟨a, rfl⟩ := hok hP
  exact hok' a hP

lemma read_bind {f : Site → Run β} (site : Site) (h : ∀ s ∈ S, f s = f site)
    (hf : EndsAlike S P (f site)) : EndsAlike S P (read >>= f) := by
  obtain ⟨r, hok, hr⟩ := hf
  refine ⟨r, hok, fun s hs w => .after (read_apply s w) ?_⟩
  rw [h s hs]
  exact hr s hs w

lemma attempt (hx : EndsAlike S False x) : EndsAlike S P (Run.attempt x) := by
  obtain ⟨r, -, hr⟩ := hx
  exact ⟨.ok r, fun _ => ⟨r, rfl⟩, fun site hsite w => (hr site hsite w).attempt⟩

lemma forM {f : α → Run Unit} (hf : ∀ a, EndsAlike S P (f a)) (xs : List α) :
    EndsAlike S P (xs.forM f) := by
  induction xs with
  | nil => exact pure ()
  | cons x xs ih => exact (hf x).bind fun _ => ih

lemma ite {c : Prop} [Decidable c] {y : Run α} (hx : EndsAlike S P x) (hy : EndsAlike S P y) :
    EndsAlike S P (if c then x else y) := by
  split
  · exact hx
  · exact hy

lemma loadModule {p : Path} {r : Except Fault (List Member)}
    (h : ∀ site ∈ S, imported site (moduleKey site p) = r) : EndsAlike S False (Run.loadModule p) := by
  refine ⟨r, nofun, fun site hsite w => .of_eq ?_⟩
  rw [loadModule_apply, h site hsite]

lemma fst_eq (hx : EndsAlike S P x) {site site' : Site} (hsite : site ∈ S)
    (hsite' : site' ∈ S) (w v : World) : (x site w).1 = (x site' v).1 := by
  obtain ⟨r, -, hr⟩ := hx
  obtain ⟨es, hes⟩ := hr site hsite w
  obtain ⟨fs, hfs⟩ := hr site' hsite' v
  rw [hes, hfs]

end EndsAlike

end Run

/-! ## Values that can be shown -/

namespace Value

lemma areWritable_iff {xs : List Value} : areWritable xs ↔ ∀ x ∈ xs, x.isWritable := by
  induction xs with
  | nil => simp [areWritable]
  | cons x xs ih => simp [areWritable, ih]

lemma isWritable_of_named {name : String}
    (h : hasWritable es) (hv : named name es = some v) : v.isWritable := by
  have hmem := mem_of_named_eq_some hv
  clear hv
  induction es with
  | nil => cases hmem
  | cons e es ih =>
    rw [hasWritable, Bool.and_eq_true, Bool.and_eq_true] at h
    rcases mem_cons.mp hmem with rfl | hmem
    · exact h.1.2
    · exact ih h.2 hmem

lemma isWritable_getD_named (name : String) {d : Value} (h : hasWritable es) (hd : d.isWritable) :
    ((named name es).getD d).isWritable := by
  cases hv : named name es with
  | none => exact hd
  | some v => exact isWritable_of_named h hv

lemma plainText_of_isWritable (h : v.isWritable) : v.plainText = .ok v.plain := by
  rw [plainText, checkWritable, if_pos h]
  rfl

lemma exactText_of_isWritable (h : v.isWritable) : v.exactText = .ok v.exact := by
  rw [exactText, checkWritable, if_pos h]
  rfl

end Value

namespace Metadata

open Value

lemma nameOrUnknown_of_isWritable {name : Value} (h : name.isWritable) :
    ∃ s, nameOrUnknown name = .ok s := by
  rw [nameOrUnknown, plainText_of_isWritable h]
  split
  · exact ⟨_, rfl⟩
  · exact ⟨_, rfl⟩

lemma entryComplaints_of_isWritable {label : String} {entry : Value} (h : entry.isWritable) :
    ∃ cs, entryComplaints label entry = .ok cs := by
  cases entry with
  | map es =>
    have hes : hasWritable es := h
    have hname := isWritable_getD_named "name" hes (d := .null) rfl
    have hversion := isWritable_getD_named "version" hes (d := .null) rfl
    obtain ⟨owner, howner⟩ := nameOrUnknown_of_isWritable hname
    simp only [entryComplaints, howner, plainText_of_isWritable hversion, except_ok_bind]
    split
    · split
      · exact ⟨_, rfl⟩
      · exact ⟨_, rfl⟩
    · exact ⟨_, rfl⟩
  | _ =>
    rw [entryComplaints, exactText_of_isWritable h]
    · exact ⟨_, rfl⟩
    · simp

lemma sectionComplaints_of_isWritable (name label : String) {entries : Value}
    (h : entries.isWritable) : ∃ cs, sectionComplaints name label entries = .ok cs := by
  unfold sectionComplaints
  split
  · exact ⟨_, rfl⟩
  · cases entries with
    | list xs =>
      have hxs : ∀ x ∈ xs, ∃ cs, entryComplaints label x = .ok cs := fun x hx =>
        entryComplaints_of_isWritable (areWritable_iff.mp h x hx)
      obtain ⟨css, hcss⟩ := exists_mapM_eq_ok.mpr hxs
      exact ⟨css.flatten, by simp [hcss]⟩
    | _ => exact ⟨_, rfl⟩

lemma dependencyComplaints_of_isWritable (h : hasWritable es) :
    ∃ cs, dependencyComplaints (.map es) = .ok cs := by
  have hwritable : (((named "dependencies" es).getD .null).orElse (.map [])).isWritable := by
    rw [Value.orElse]
    split
    · exact isWritable_getD_named "dependencies" h rfl
    · rfl
  rw [dependencyComplaints, getOrNull_map, except_ok_bind]
  generalize ((named "dependencies" es).getD .null).orElse (.map []) = v at hwritable
  cases v with
  | map ds =>
    have hsections : ∀ x ∈ dependencySections, ∃ cs,
        sectionComplaints x.1 x.2 ((named x.1 ds).getD (.list [])) = .ok cs := fun x _ =>
      sectionComplaints_of_isWritable x.1 x.2 (isWritable_getD_named x.1 hwritable rfl)
    obtain ⟨css, hcss⟩ := exists_mapM_eq_ok.mpr hsections
    exact ⟨css.flatten, by simp [hcss]⟩
  | _ => exact ⟨_, rfl⟩

end Metadata

namespace Compile

open Metadata Run

/-- Surroundings in which the check finds its folders and the modules at `ps` as in the given ones. -/
structure Alike (site : Site) (ps : List Path) (other : Site) : Prop where
  repository : other.repository = site.repository
  scratch : other.scratch = site.scratch
  modules : ∀ p ∈ ps, imported other (moduleKey other p) = imported site (moduleKey site p)

lemma Alike.refl (site : Site) (ps : List Path) : Alike site ps site := ⟨rfl, rfl, fun _ _ => rfl⟩

section

variable {site : Site} {ps : List Path} {t : Target} {P : Prop}

lemma loadTarget_endsAlike (ht : t.modulePath ∈ ps) :
    EndsAlike {s | Alike site ps s} False (loadTarget t) := by
  apply EndsAlike.read_bind site
  · intro s hs
    rw [hs.repository]
  · refine (EndsAlike.ofExcept nofun).bind fun name => .bind ?_ fun members => .pure _
    exact .loadModule fun s hs => hs.modules _ ht

lemma compileTarget_endsAlike (ht : t.modulePath ∈ ps) :
    EndsAlike {s | Alike site ps s} P (compileTarget t) := by
  apply (loadTarget_endsAlike ht).attempt.bind
  intro r
  cases r with
  | error e => exact .pure _
  | ok found =>
    dsimp only
    split
    · exact .pure _
    · apply EndsAlike.read_bind site
      · intro s hs
        rw [hs.scratch]
      · exact .pure _

lemma outcome_endsAlike (ht : t.modulePath ∈ ps)
    (hcomplaints : P → ∃ cs, dependencyComplaints t.metadata = .ok cs) :
    EndsAlike {s | Alike site ps s} P (outcome t) := by
  apply (EndsAlike.ofExcept hcomplaints).bind
  intro complaints
  cases complaints with
  | nil => exact compileTarget_endsAlike ht
  | cons c cs => exact .pure _

lemma report_endsAlike (ht : t.modulePath ∈ ps)
    (hname : P → ∃ name, displayName site.repository t = .ok name)
    (hcomplaints : P → ∃ cs, dependencyComplaints t.metadata = .ok cs) :
    EndsAlike {s | Alike site ps s} P (report t) := by
  apply EndsAlike.read_bind site
  · intro s hs
    rw [hs.repository]
  · apply (EndsAlike.ofExcept hname).bind
    intro name
    apply (EndsAlike.log _ _).bind
    intro _
    have hvalidate : EndsAlike {s | Alike site ps s} P (validate t) := by
      apply (outcome_endsAlike ht hcomplaints).bind
      intro o
      exact (EndsAlike.forM (.log .error) o.errors).bind fun _ => .pure o
    apply hvalidate.bind
    intro o
    exact .ite ((EndsAlike.log _ _).bind fun _ => .pure o)
      ((EndsAlike.log _ _).bind fun _ => .pure o)

lemma reportAll_endsAlike (failFast : Bool) {ts : List Target} (hts : ∀ t ∈ ts, t.modulePath ∈ ps) :
    EndsAlike {s | Alike site ps s} False (reportAll failFast ts) := by
  induction ts with
  | nil => exact .pure []
  | cons t ts ih =>
    obtain ⟨ht, hrest⟩ := forall_mem_cons.mp hts
    apply (report_endsAlike ht nofun nofun).bind
    intro o
    exact .ite (.pure _) ((ih hrest).bind fun os => .pure _)

lemma run_endsAlike (failFast : Bool) {ts : List Target} (hts : ∀ t ∈ ts, t.modulePath ∈ ps) :
    EndsAlike {s | Alike site ps s} False (run failFast ts) := by
  apply EndsAlike.ite
  · exact (EndsAlike.log _ _).bind fun _ => .pure 0
  · apply (reportAll_endsAlike failFast hts).bind
    intro os
    apply (EndsAlike.log _ _).bind
    intro _
    exact .ite ((EndsAlike.log _ _).bind fun _ => .pure _) (.pure _)

end

/-- What becomes of a target, whatever was done before. -/
def Reported (site : Site) (t : Target) (o : Outcome) : Prop := ∀ w, (report t site w).1 = .ok o

/-- A target whose report ends the whole check. -/
def Breaks (site : Site) (t : Target) : Prop := ∀ w, ∃ e, (report t site w).1 = .error e

section

variable {site : Site} {t : Target} {ts : List Target} {o : Outcome} {os : List Outcome}
variable (w : World)

lemma report_fst (w v : World) : (report t site w).1 = (report t site v).1 :=
  (report_endsAlike (P := False) mem_cons_self nofun nofun).fst_eq (.refl site [t.modulePath]) (.refl site _) w v

lemma reported_iff : Reported site t o ↔ (report t site w).1 = .ok o := by
  constructor
  · intro h
    exact h w
  · intro h v
    rw [report_fst v w, h]

lemma not_breaks_iff : ¬Breaks site t ↔ ∃ o, Reported site t o := by
  constructor
  · intro h
    rcases hr : (report t site default).1 with e | o
    · exact absurd (fun w => ⟨e, by rw [report_fst w default, hr]⟩) h
    · exact ⟨o, (reported_iff default).mpr hr⟩
  · rintro ⟨o, ho⟩ h
    obtain ⟨e, he⟩ := h default
    rw [ho default] at he
    cases he

lemma reportAll_cons_fst (failFast : Bool) (w : World) :
    (reportAll failFast (t :: ts) site w).1 = ((report t site w).1 >>= fun o =>
      if failFast && !o.succeeded then pure [o]
      else (reportAll failFast ts site w).1 >>= fun os => pure (o :: os)) := by
  have hrest (v : World) : (reportAll failFast ts site v).1 = (reportAll failFast ts site w).1 :=
    (reportAll_endsAlike failFast fun _ ht => mem_map_of_mem ht).fst_eq
      (.refl site (ts.map Target.modulePath)) (.refl site _) v w
  rw [reportAll, bind_apply]
  rcases report t site w with ⟨e | o, v⟩
  · rfl
  · dsimp only [except_ok_bind]
    split
    · rfl
    · rw [bind_apply, ← hrest v]
      rcases reportAll failFast ts site v with ⟨e | os, u⟩ <;> rfl

lemma reportAll_false_eq_ok :
    (reportAll false ts site w).1 = .ok os ↔ List.Forall₂ (Reported site) ts os := by
  induction ts generalizing os with
  | nil => simp [reportAll]
  | cons t ts ih =>
    simp only [reportAll_cons_fst, Bool.false_and, Bool.false_eq_true, if_false, except_bind_eq_ok,
      except_pure_eq_ok, forall₂_cons_left_iff, reported_iff w, ih]
    constructor
    · rintro ⟨o, ho, os', hos', rfl⟩
      exact ⟨o, os', ho, hos', rfl⟩
    · rintro ⟨o, os', ho, hos', rfl⟩
      exact ⟨o, ho, os', hos', rfl⟩

/-- Outcomes of the targets up to the first that fails, or of all if none does. -/
def UpToFailure (site : Site) (ts : List Target) (os : List Outcome) : Prop :=
  (List.Forall₂ (Reported site) ts os ∧ ∀ o ∈ os, o.succeeded = true) ∨
    ∃ before t after passed o, ts = before ++ t :: after ∧ os = passed ++ [o] ∧
      List.Forall₂ (Reported site) before passed ∧ (∀ p ∈ passed, p.succeeded = true) ∧
      Reported site t o ∧ o.succeeded = false

lemma upToFailure_nil : UpToFailure site [] os ↔ os = [] := by
  constructor
  · rintro (⟨h, -⟩ | ⟨before, t, after, passed, o, h, -⟩)
    · exact forall₂_nil_left_iff.mp h
    · simp at h
  · rintro rfl
    exact .inl ⟨.nil, by simp⟩

lemma upToFailure_cons : UpToFailure site (t :: ts) os ↔ ∃ o, Reported site t o ∧
      (o.succeeded = false ∧ os = [o] ∨
        o.succeeded ∧ ∃ os', UpToFailure site ts os' ∧ os = o :: os') := by
  constructor
  · rintro (⟨h, hall⟩ | ⟨before, u, after, passed, o, hts, rfl, h, hall, ho, hfails⟩)
    · obtain ⟨o, os', ho, hos', rfl⟩ := forall₂_cons_left_iff.mp h
      obtain ⟨hsucceeds, hall⟩ := forall_mem_cons.mp hall
      exact ⟨o, ho, .inr ⟨hsucceeds, os', .inl ⟨hos', hall⟩, rfl⟩⟩
    · cases h with
      | nil =>
        cases hts
        exact ⟨o, ho, .inl ⟨hfails, rfl⟩⟩
      | @cons _ p before passed hp h =>
        obtain ⟨rfl, rfl⟩ := List.cons.inj hts
        obtain ⟨hsucceeds, hall⟩ := forall_mem_cons.mp hall
        have hrest : UpToFailure site (before ++ u :: after) (passed ++ [o]) :=
          .inr ⟨before, u, after, passed, o, rfl, rfl, h, hall, ho, hfails⟩
        exact ⟨p, hp, .inr ⟨hsucceeds, passed ++ [o], hrest, rfl⟩⟩
  · rintro ⟨o, ho, ⟨hfails, rfl⟩ | ⟨hsucceeds, os', hos', rfl⟩⟩
    · exact .inr ⟨[], t, ts, [], o, rfl, rfl, .nil, by simp, ho, hfails⟩
    · rcases hos' with ⟨h, hall⟩ | ⟨before, u, after, passed, p, rfl, rfl, h, hall, hp, hfails⟩
      · exact .inl ⟨.cons ho h, forall_mem_cons.mpr ⟨hsucceeds, hall⟩⟩
      · exact .inr ⟨t :: before, u, after, o :: passed, p, rfl, rfl, .cons ho h,
          forall_mem_cons.mpr ⟨hsucceeds, hall⟩, hp, hfails⟩

lemma reportAll_true_eq_ok :
    (reportAll true ts site w).1 = .ok os ↔ UpToFailure site ts os := by
  induction ts generalizing os with
  | nil => simp [reportAll, upToFailure_nil]
  | cons t ts ih =>
    rw [upToFailure_cons, reportAll_cons_fst, except_bind_eq_ok]
    apply exists_congr
    intro o
    rw [reported_iff w]
    apply and_congr_right
    intro _
    cases o.succeeded with
    | false =>
      rw [Bool.not_false, Bool.and_self, if_pos rfl, except_pure_eq_ok]
      simp [eq_comm]
    | true =>
      rw [Bool.not_true, Bool.and_false, if_neg Bool.false_ne_true, except_bind_eq_ok]
      simp only [except_pure_eq_ok, ih, reduceCtorEq, false_and, true_and, false_or]
      exact exists_congr fun os' => and_congr_right fun _ => eq_comm

lemma run_fst (failFast : Bool) (w : World) :
    (run failFast ts site w).1 = (reportAll failFast ts site w).1.map status := by
  cases ts with
  | nil =>
    rfl
  | cons t ts =>
    rw [run, isEmpty_cons, if_neg (by decide), bind_apply]
    rcases reportAll failFast (t :: ts) site w with ⟨e | os, v⟩
    · rfl
    · dsimp only
      split <;> rfl

/-- A target that fails, where those before it pass and a later one breaks the check off. -/
def CutShort (site : Site) (ts : List Target) : Prop :=
  ∃ before t after, ts = before ++ t :: after ∧
    (∀ s ∈ before, ∃ o, Reported site s o ∧ o.succeeded = true) ∧
    (∃ o, Reported site t o ∧ o.succeeded = false) ∧ ∃ s ∈ after, Breaks site s

lemma not_cutShort_nil : ¬CutShort site [] := by
  rintro ⟨before, t, after, h, -⟩
  simp at h

lemma Reported.eq {o' : Outcome} (h : Reported site t o) (h' : Reported site t o') : o' = o := by
  have hsame := (h' default).symm.trans (h default)
  exact Except.ok.inj hsame

lemma cutShort_cons_of_passes (ho : Reported site t o) (hsucceeds : o.succeeded) :
    CutShort site (t :: ts) ↔ CutShort site ts := by
  constructor
  · rintro ⟨_ | ⟨s, before⟩, u, after, hts, hpass, ⟨p, hp, hfails⟩, hbreak⟩
    · cases hts
      rw [ho.eq hp, hsucceeds] at hfails
      cases hfails
    · obtain ⟨rfl, rfl⟩ := List.cons.inj hts
      exact ⟨before, u, after, rfl, (forall_mem_cons.mp hpass).2, ⟨p, hp, hfails⟩, hbreak⟩
  · rintro ⟨before, u, after, rfl, hpass, hfails, hbreak⟩
    exact ⟨t :: before, u, after, rfl, forall_mem_cons.mpr ⟨⟨o, ho, hsucceeds⟩, hpass⟩, hfails,
      hbreak⟩

lemma cutShort_cons_of_fails (ho : Reported site t o) (hfails : o.succeeded = false) :
    CutShort site (t :: ts) ↔ ∃ s ∈ ts, Breaks site s := by
  constructor
  · rintro ⟨_ | ⟨s, before⟩, u, after, hts, hpass, -, hbreak⟩
    · cases hts
      exact hbreak
    · obtain ⟨rfl, rfl⟩ := List.cons.inj hts
      obtain ⟨⟨p, hp, hsucceeds⟩, -⟩ := forall_mem_cons.mp hpass
      rw [ho.eq hp, hfails] at hsucceeds
      cases hsucceeds
  · intro hbreak
    exact ⟨[], t, ts, rfl, by simp, ⟨o, ho, hfails⟩, hbreak⟩

lemma not_cutShort_cons_of_breaks (h : Breaks site t) : ¬CutShort site (t :: ts) := by
  rintro ⟨_ | ⟨s, before⟩, u, after, hts, hpass, ⟨p, hp, -⟩, -⟩
  · cases hts
    exact not_breaks_iff.mpr ⟨p, hp⟩ h
  · obtain ⟨rfl, rfl⟩ := List.cons.inj hts
    obtain ⟨⟨p, hp, -⟩, -⟩ := forall_mem_cons.mp hpass
    exact not_breaks_iff.mpr ⟨p, hp⟩ h

lemma exists_reportAll_false_iff :
    (∃ os, (reportAll false ts site w).1 = .ok os) ↔ ∀ t ∈ ts, ¬Breaks site t := by
  simp only [reportAll_false_eq_ok, not_breaks_iff]
  induction ts with
  | nil => simp
  | cons t ts ih =>
    rw [forall_mem_cons, ← ih]
    simp only [forall₂_cons_left_iff]
    constructor
    · rintro ⟨_, o, os, ho, hos, rfl⟩
      exact ⟨⟨o, ho⟩, os, hos⟩
    · rintro ⟨⟨o, ho⟩, os, hos⟩
      exact ⟨_, o, os, ho, hos, rfl⟩

lemma status_cons_of_fails (hfails : o.succeeded = false) (os : List Outcome) :
    status (o :: os) = 1 := by
  simp [status, hfails]

lemma status_cons_of_passes (hsucceeds : o.succeeded) (os : List Outcome) :
    status (o :: os) = status os := by
  simp [status, hsucceeds]

lemma map_status_reportAll_eq_iff :
    (reportAll true ts site w).1.map status = (reportAll false ts site w).1.map status ↔
      ¬CutShort site ts := by
  induction ts with
  | nil => simp [reportAll, not_cutShort_nil]
  | cons t ts ih =>
    rw [reportAll_cons_fst, reportAll_cons_fst]
    rcases hr : (report t site w).1 with e | o
    · have hbreaks : Breaks site t := fun v => ⟨e, by rw [report_fst v w, hr]⟩
      exact ⟨fun _ => not_cutShort_cons_of_breaks hbreaks, fun _ => rfl⟩
    have ho := (reported_iff w).mpr hr
    have hmap {f : List Outcome → Int} (x : Except Fault (List Outcome))
        (hf : ∀ os, status (o :: os) = f os) :
        (x >>= fun os => pure (o :: os)).map status = x.map f := by
      cases x with
      | error e => rfl
      | ok os => exact congrArg Except.ok (hf os)
    rw [except_ok_bind, except_ok_bind, Bool.false_and, if_neg Bool.false_ne_true]
    cases hstate : o.succeeded with
    | true =>
      -- A target that passes changes neither status.
      rw [Bool.not_true, Bool.and_false, if_neg Bool.false_ne_true,
        hmap _ (status_cons_of_passes hstate), hmap _ (status_cons_of_passes hstate),
        cutShort_cons_of_passes ho hstate]
      exact ih
    | false =>
      -- The short check ends here, and the full one ends alike if it ends at all.
      rw [Bool.not_false, Bool.and_self, if_pos rfl, hmap _ (status_cons_of_fails hstate),
        cutShort_cons_of_fails ho hstate]
      have hfull : (∃ os, (reportAll false ts site w).1 = .ok os) ↔ ∀ t ∈ ts, ¬Breaks site t :=
        exists_reportAll_false_iff w
      have hone : (pure [o] : Except Fault (List Outcome)).map status = .ok 1 :=
        congrArg Except.ok (status_cons_of_fails hstate [])
      rw [hone]
      rcases hrest : (reportAll false ts site w).1 with e | os
      · rw [hrest] at hfull
        simpa [Except.map] using hfull
      · rw [hrest] at hfull
        simpa [Except.map] using hfull

/-! ## Targets that break the check off -/

lemma not_breaks (hname : ∃ name, displayName site.repository t = .ok name)
    (hcomplaints : ∃ cs, dependencyComplaints t.metadata = .ok cs) : ¬Breaks site t := by
  intro h
  obtain ⟨r, hok, hr⟩ := report_endsAlike (P := True) (mem_cons_self (l := [])) (fun _ => hname)
    fun _ => hcomplaints
  obtain ⟨o, rfl⟩ := hok trivial
  obtain ⟨es, hes⟩ := hr site (.refl site _) default
  obtain ⟨e, he⟩ := h default
  rw [hes] at he
  cases he

lemma not_breaks_of_isWritable (hmap : t.metadata.isMap)
    (h : t.metadata.isWritable) : ¬Breaks site t := by
  obtain ⟨es, hes⟩ : ∃ es, t.metadata = .map es := by
    cases hm : t.metadata with
    | map es => exact ⟨es, rfl⟩
    | _ => simp [hm, Value.isMap] at hmap
  rw [hes] at h
  have hname : ∃ name, displayName site.repository t = .ok name := by
    rw [displayName, hes, Value.getOrNull_map, except_ok_bind]
    have hwritable := Value.isWritable_getD_named "name" h (d := .null) rfl
    rw [Value.plainText_of_isWritable hwritable]
    split
    · exact ⟨_, rfl⟩
    · exact ⟨_, rfl⟩
  exact not_breaks hname (hes ▸ dependencyComplaints_of_isWritable h)

lemma not_cutShort_of_forall (h : ∀ t ∈ ts, ¬Breaks site t) : ¬CutShort site ts := by
  rintro ⟨before, t, after, rfl, -, -, s, hs, hbreaks⟩
  have hmem : s ∈ before ++ t :: after := by simp [hs]
  exact h s hmem hbreaks

end

def loneTarget (name : String) (metadata : List (Value × Value)) : Target where
  metadataPath := ⟨"/", ["components", "data", name, "metadata.yaml"]⟩
  modulePath := ⟨"/", ["components", "data", name, "component.py"]⟩
  kind := "component"
  metadata := .map metadata

def compilingSite (name : String) : Site :=
  { rootSite with modules :=
      [("components/data/" ++ name ++ "/component.py", .members [{ name, componentSpec := true }])] }

def mixedTargets : List Target := [loneTarget "load" [], loneTarget "parse" [], loneTarget "load" []]

/-- Metadata with a version that is a number of more digits than can be shown. -/
def vastVersion : List (Value × Value) :=
  [(.text "dependencies", .map [(.text "kubeflow", .list [.map
    [(.text "name", .text "Pipelines"), (.text "version", .int (10 ^ 4300))]])])]

end Compile

end AssetCatalog
