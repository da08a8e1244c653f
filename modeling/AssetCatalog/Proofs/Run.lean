import AssetCatalog.Proofs.Fault
import AssetCatalog.Run

/-!
# Reasoning about runs

What the basic operations do from a given world, and calculi for what runs ensure.
-/

namespace AssetCatalog

open List

variable {p : Path} {w w' : World} {c : Prop}

def World.printed (w : World) (ls : List String) : World :=
  { w with output := w.output ++ String.join (ls.map (· ++ "\n")) }

@[simp] lemma World.printed_nil (w : World) : w.printed [] = w := by simp [World.printed]

@[simp] lemma World.printed_printed (w : World) (ls ms : List String) :
    (w.printed ls).printed ms = w.printed (ls ++ ms) := by
  simp [World.printed, String.append_assoc]

@[simp] lemma World.printed_tree (w : World) (ls : List String) : (w.printed ls).tree = w.tree := rfl

namespace Run

variable {α β : Type}

section Apply

variable (p : Path) (site : Site) (w : World)

@[simp] lemma pure_apply (a : α) : (pure a : Run α) site w = (.ok a, w) := rfl

@[simp] lemma throw_apply (e : Fault) : (throw e : Run α) site w = (.error e, w) := rfl

@[simp] lemma bind_apply (x : Run α) (f : α → Run β) : (x >>= f) site w =
      match x site w with
      | (.ok a, w') => f a site w'
      | (.error e, w') => (.error e, w') := by
  rcases hx : x site w with ⟨r, w'⟩
  cases r <;>
    simp [bind, ReaderT.bind, ExceptT.bind, ExceptT.mk, StateT.bind, ExceptT.bindCont, hx, pure,
      StateT.pure]

@[simp] lemma map_apply (f : α → β) (x : Run α) : (f <$> x) site w =
      match x site w with
      | (.ok a, w') => (.ok (f a), w')
      | (.error e, w') => (.error e, w') := by
  rw [map_eq_pure_bind, bind_apply]
  rfl

@[simp] lemma tryCatch_apply (x : Run α) (h : Fault → Run α) : (tryCatch x h) site w =
      match x site w with
      | (.ok a, w') => (.ok a, w')
      | (.error e, w') => h e site w' := by
  change ExceptT.tryCatch (x site) (fun e => h e site) w = _
  rcases hx : x site w with ⟨r, w'⟩
  cases r <;> simp [ExceptT.tryCatch, ExceptT.mk, StateT.bind, bind, hx, pure, StateT.pure]

@[simp] lemma get_apply : (get : Run World) site w = (.ok w, w) := rfl

@[simp] lemma read_apply : (read : Run Site) site w = (.ok site, w) := rfl

@[simp] lemma modify_apply (f : World → World) : (modify f : Run Unit) site w = (.ok (), f w) := rfl

@[simp] lemma set_apply (v : World) : (set v : Run Unit) site w = (.ok (), v) := rfl

@[simp] lemma log_apply (level : Level) (message : String) :
    log level message site w = (.ok (), { w with log := w.log ++ [⟨level, message⟩] }) := rfl

@[simp] lemma print_apply (s : String) : print s site w = (.ok (), w.printed [s]) := by
  simp [print, write, World.printed]

lemma printAll_apply (ls : List String) : printAll ls site w = (.ok (), w.printed ls) := by
  induction ls generalizing w with
  | nil => simp [printAll]
  | cons l ls ih =>
    have hrest := ih (w.printed [l])
    rw [World.printed_printed] at hrest
    change (print l >>= fun _ => printAll ls) site w = _
    exact hrest

@[simp] lemma pause_apply (seconds : Int) :
    pause seconds site w = (.ok (), { w with pauses := w.pauses ++ [seconds] }) := rfl

@[simp] lemma ofExcept_apply (x : Except Fault α) : ofExcept x site w = (x, w) := by
  cases x <;> rfl

@[simp] lemma attempt_apply (x : Run α) : attempt x site w = (.ok (x site w).1, (x site w).2) := by
  simp only [attempt, tryCatch_apply, map_apply]
  rcases x site w with ⟨r, w'⟩
  cases r <;> rfl

@[simp] lemma locate_apply : locate p site w = (.ok (site.home.join p).names, w) := rfl

@[simp] lemma isFolder_apply :
    isFolder p site w = (.ok (w.tree.isFolder (site.home.join p).names), w) := by
  simp [isFolder]

@[simp] lemma exists?_apply :
    exists? p site w = (.ok (w.tree.exists? (site.home.join p).names), w) := by
  simp [exists?]

lemma content_apply : content p site w = (w.tree.read (site.home.join p).names, w) := by
  simp [content]

lemma readText_apply :
    readText p site w = ((w.tree.read (site.home.join p).names).bind Content.lineText, w) := by
  rw [readText, bind_apply, content_apply]
  rcases w.tree.read (site.home.join p).names with e | c
  · rfl
  · exact ofExcept_apply site w _

def imported (site : Site) (name : String) : Except Fault (List Member) :=
  match site.modules.lookup name with
  | some (.members ms) => .ok ms
  | some (.broken m) => .error (.load m)
  | none => .ok []

lemma importModule_apply (name : String) : importModule name site w = (imported site name, w) := by
  rw [importModule, bind_apply, read_apply, imported]
  dsimp only
  rcases site.modules.lookup name with _ | ⟨ms⟩ | ⟨m⟩ <;> rfl

def moduleKey (site : Site) (p : Path) : String :=
  (((p.resolve site.home).relativeTo? site.home).getD (p.resolve site.home)).text

lemma loadModule_apply : loadModule p site w = (imported site (moduleKey site p), w) := by
  exact importModule_apply site w _

end Apply

variable {x : Run α} {f : α → Run β} {xs : List α} {site : Site}

lemma writeText_eq_ok {s : String} (h : writeText p s site w = (.ok (), w')) :
    w.tree.write (site.home.join p).names (.text s) = .ok w'.tree := by
  simp only [writeText, bind_apply, locate_apply, get_apply] at h
  rcases hwrite : w.tree.write (site.home.join p).names (.text s) with e | u
  · rw [hwrite] at h
    cases h
  · rw [hwrite] at h
    cases h
    rfl

lemma eq_ok_of_toOption {r : Except Fault α × World} {a : α} (h : r.1.toOption = some a) :
    r = (.ok a, r.2) := by
  obtain ⟨e | b, w⟩ := r
  · cases h
  · cases h
    rfl

lemma bind_of_eq {v : World} {a : α} (hx : x site w = (.ok a, v))
    (f : α → Run β) : (x >>= f) site w = f a site v := by
  rw [bind_apply, hx]

lemma bind_eq_ok {b : β} (h : (x >>= f) site w = (.ok b, w')) :
    ∃ a v, x site w = (.ok a, v) ∧ f a site v = (.ok b, w') := by
  rw [bind_apply] at h
  rcases hx : x site w with ⟨e | a, v⟩
  · rw [hx] at h
    cases h
  · rw [hx] at h
    exact ⟨a, v, rfl, h⟩

lemma bind_eq_error {e : Fault} (h : (x >>= f) site w = (.error e, w')) :
    x site w = (.error e, w') ∨ ∃ a v, x site w = (.ok a, v) ∧ f a site v = (.error e, w') := by
  rw [bind_apply] at h
  rcases hx : x site w with ⟨e | a, v⟩
  · rw [hx] at h
    cases h
    exact .inl rfl
  · rw [hx] at h
    exact .inr ⟨a, v, rfl, h⟩

/-- From a world with `I`, an operation ends in a world with `I` whether it fails or not, and what
it gives satisfies `P`. -/
def Ensures (I : World → Prop) (x : Run α) (P : α → Prop) : Prop :=
  ∀ site w, I w → I (x site w).2 ∧ ∀ a, (x site w).1 = .ok a → P a

namespace Ensures

variable {I : World → Prop} {P : α → Prop} {Q : β → Prop}

lemma pure {a : α} (h : P a) : Ensures I (Pure.pure a) P := by
  intro site w hw
  refine ⟨hw, ?_⟩
  intro b hb
  cases hb
  exact h

lemma bind (hx : Ensures I x P) (hf : ∀ a, P a → Ensures I (f a) Q) : Ensures I (x >>= f) Q := by
  intro site w hw
  obtain ⟨hinv, hpost⟩ := hx site w hw
  rw [bind_apply]
  rcases hr : x site w with ⟨r, w'⟩
  rw [hr] at hinv hpost
  cases r with
  | ok a => exact hf a (hpost a rfl) site w' hinv
  | error e => exact ⟨hinv, by intro b hb; cases hb⟩

lemma mono {P' : α → Prop} (hx : Ensures I x P) (h : ∀ a, P a → P' a) : Ensures I x P' := by
  intro site w hw
  obtain ⟨hinv, hpost⟩ := hx site w hw
  exact ⟨hinv, fun a ha => h a (hpost a ha)⟩

lemma any (x : Run α) : Ensures (fun _ => True) x fun _ => True :=
  fun _ _ _ => ⟨trivial, fun _ _ => trivial⟩

lemma throw (e : Fault) : Ensures I (throw e : Run α) P := by
  intro site w hw
  exact ⟨hw, by intro a ha; cases ha⟩

lemma throw_bind (e : Fault) (f : α → Run β) : Ensures I (MonadExcept.throw e >>= f) Q :=
  bind (throw e (P := fun _ => False)) fun _ h => h.elim

lemma ite [Decidable c] {x y : Run α} (hx : Ensures I x P) (hy : Ensures I y P) :
    Ensures I (if c then x else y) P := by
  split
  · exact hx
  · exact hy

lemma tryCatch {f : Fault → Run α} (hx : Ensures I x P) (hf : ∀ e, Ensures I (f e) P) :
    Ensures I (tryCatch x f) P := by
  intro site w hw
  obtain ⟨hinv, hpost⟩ := hx site w hw
  rw [tryCatch_apply]
  rcases hr : x site w with ⟨e | a, w'⟩
  · rw [hr] at hinv
    exact hf e site w' hinv
  · rw [hr] at hinv hpost
    exact ⟨hinv, hpost⟩

lemma get : Ensures I MonadState.get I := by
  intro site w hw
  refine ⟨hw, ?_⟩
  intro a ha
  cases ha
  exact hw

lemma ofExcept {x : Except Fault α} (h : ∀ a, x = .ok a → P a) : Ensures I (ofExcept x) P := by
  intro site w hw
  rw [ofExcept_apply]
  exact ⟨hw, h⟩

lemma locate (p : Path) : Ensures I (Run.locate p) fun _ => True :=
  fun _ _ hw => ⟨hw, fun _ _ => trivial⟩

lemma exists? (p : Path) : Ensures I (Run.exists? p) fun _ => True :=
  fun _ _ hw => ⟨hw, fun _ _ => trivial⟩

lemma isFolder (p : Path) : Ensures I (Run.isFolder p) fun _ => True :=
  fun _ _ hw => ⟨hw, fun _ _ => trivial⟩

lemma folderItems (p : Path) : Ensures I (Run.folderItems p) fun _ => True := by
  apply bind (locate p)
  intro l _
  intro w _
  apply bind (ofExcept (P := fun _ => True) fun _ _ => trivial)
  intro names _
  exact pure trivial

lemma mapM (h : ∀ a ∈ xs, Ensures I (f a) Q) : Ensures I (xs.mapM f) fun ys => ∀ b ∈ ys, Q b := by
  induction xs with
  | nil => exact pure (by simp)
  | cons a as ih =>
    rw [mapM_cons]
    apply bind (h a (mem_cons_self ..))
    intro b hb
    apply bind (ih fun c hc => h c (mem_cons_of_mem _ hc))
    intro bs hbs
    apply pure
    intro c hc
    rcases mem_cons.mp hc with rfl | hc
    · exact hb
    · exact hbs c hc

lemma foldlM {f : β → α → Run β} {b : β} (hb : Q b)
    (h : ∀ b, Q b → ∀ a ∈ xs, Ensures I (f b a) Q) : Ensures I (xs.foldlM f b) Q := by
  induction xs generalizing b with
  | nil => exact pure hb
  | cons a as ih =>
    apply bind (h b hb a mem_cons_self)
    intro c hc
    exact ih hc fun d hd e he => h d hd e (mem_cons_of_mem a he)

lemma forM {f : α → Run Unit} (h : ∀ a ∈ xs, Ensures I (f a) fun _ => P a) :
    Ensures I (xs.forM f) fun _ => ∀ a ∈ xs, P a := by
  induction xs with
  | nil => exact pure (by simp)
  | cons a as ih =>
    refine bind (h a mem_cons_self) fun _ ha => ?_
    exact (ih fun c hc => h c (mem_cons_of_mem a hc)).mono fun _ has =>
      forall_mem_cons.mpr ⟨ha, has⟩

lemma filterM {f : α → Run Bool} (h : ∀ a ∈ xs, Ensures I (f a) fun b => b → P a) :
    Ensures I (xs.filterM f) fun ys => ∀ a ∈ ys, P a := by
  induction xs with
  | nil => exact pure (by simp)
  | cons a as ih =>
    obtain ⟨ha, has⟩ := forall_mem_cons.mp h
    rw [filterM_cons]
    refine ha.bind fun b hb => (ih has).bind fun ys hys => pure ?_
    cases b with
    | false => exact hys
    | true => exact forall_mem_cons.mpr ⟨hb rfl, hys⟩

end Ensures

/-- From every world, an operation ends in a world that `R` relates to the first one; if it fails, its
fault satisfies `P`. -/
def Moves (site : Site) (R : World → World → Prop) (P : Fault → Prop) (x : Run α) : Prop :=
  ∀ w, R w (x site w).2 ∧ ∀ e, (x site w).1 = .error e → P e

namespace Moves

variable {R : World → World → Prop} {P : Fault → Prop}

lemma of_eq_ok (h : ∀ w, ∃ a v, x site w = (.ok a, v) ∧ R w v) : Moves site R P x := by
  intro w
  obtain ⟨a, v, hx, hv⟩ := h w
  rw [hx]
  exact ⟨hv, fun _ he => by cases he⟩

lemma pure [Std.Refl R] (a : α) : Moves site R P (Pure.pure a) :=
  of_eq_ok fun w => ⟨a, w, rfl, refl w⟩

lemma exists? [Std.Refl R] (p : Path) : Moves site R P (Run.exists? p) :=
  of_eq_ok fun w => ⟨_, w, exists?_apply p site w, refl w⟩

lemma ofExcept [Std.Refl R] {x : Except Fault α} (h : ∀ e, x = .error e → P e) :
    Moves site R P (ofExcept x) := by
  intro w
  rw [ofExcept_apply]
  exact ⟨refl w, h⟩

lemma throw [Std.Refl R] {e : Fault} (h : P e) : Moves site R P (throw e : Run α) := by
  intro w
  refine ⟨refl w, fun e' he => ?_⟩
  cases he
  exact h

lemma bind [IsTrans World R] (hx : Moves site R P x) (hf : ∀ a, Moves site R P (f a)) :
    Moves site R P (x >>= f) := by
  intro w
  obtain ⟨hfirst, hfault⟩ := hx w
  rw [bind_apply]
  rcases hr : x site w with ⟨e | a, v⟩
  · rw [hr] at hfirst hfault
    refine ⟨hfirst, fun e' he => ?_⟩
    cases he
    exact hfault e rfl
  · rw [hr] at hfirst
    exact ⟨IsTrans.trans _ _ _ hfirst (hf a v).1, (hf a v).2⟩

lemma ite [Decidable c] {x y : Run α} (hx : Moves site R P x) (hy : Moves site R P y) :
    Moves site R P (if c then x else y) := by
  split
  · exact hx
  · exact hy

lemma when [IsTrans World R] [Decidable c] {x : Run Unit} {f : Unit → Run α}
    (hx : Moves site R P x) (hf : ∀ u, Moves site R P (f u)) :
    Moves site R P (if c then x >>= f else f ()) := ite (bind hx hf) (hf ())

lemma forM [IsPreorder World R] {f : α → Run Unit} (h : ∀ a ∈ xs, Moves site R P (f a)) :
    Moves site R P (xs.forM f) := by
  induction xs with
  | nil => exact pure ()
  | cons a as ih =>
    exact bind (h a mem_cons_self) fun _ => ih fun b hb => h b (mem_cons_of_mem a hb)

lemma makeFolders [Std.Refl R]
    (hmade : ∀ w u, w.tree.makeFolders [] (site.home.join p).names = .ok u → R w { w with tree := u })
    (hfault : ∀ (w : World) e, w.tree.makeFolders [] (site.home.join p).names = .error e → P e) :
    Moves site R P (Run.makeFolders p) := by
  intro w
  simp only [Run.makeFolders, bind_apply, locate_apply, get_apply]
  rcases h : w.tree.makeFolders [] (site.home.join p).names with e | u
  · exact ⟨refl w, fun _ he => Except.error.inj he ▸ hfault w e h⟩
  · exact ⟨hmade w u h, nofun⟩

lemma writeText [Std.Refl R] {s : String}
    (hwritten : ∀ w u, w.tree.write (site.home.join p).names (.text s) = .ok u →
      R w { w with tree := u })
    (hfault : ∀ (w : World) e, w.tree.write (site.home.join p).names (.text s) = .error e → P e) :
    Moves site R P (Run.writeText p s) := by
  intro w
  simp only [Run.writeText, bind_apply, locate_apply, get_apply]
  rcases h : w.tree.write (site.home.join p).names (.text s) with e | u
  · exact ⟨refl w, fun _ he => Except.error.inj he ▸ hfault w e h⟩
  · exact ⟨hwritten w u h, nofun⟩

instance : IsPreorder World fun _ _ => True where
  refl _ := trivial
  trans _ _ _ _ _ := trivial

lemma log (level : Level) (message : String) :
    Moves site (fun _ _ => True) P (Run.log level message) :=
  of_eq_ok fun _ => ⟨(), _, rfl, trivial⟩

end Moves

def rootSite : Site where
  home := ⟨"/", []⟩
  repository := ⟨"/", []⟩
  installation := ⟨"/", []⟩
  scratch := ⟨"/", ["tmp"]⟩
  now := default

end Run

end AssetCatalog
