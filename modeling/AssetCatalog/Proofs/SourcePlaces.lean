import Mathlib.Data.List.Basic
import AssetCatalog.Source.Statement

/-! Trees of source apart from the places of their literals: `forget` makes a change of literals and
drops all places, and `spans` lists them. -/

namespace AssetCatalog.Source

/-- New texts for literals, by their places. -/
abbrev Change := Span → Option String

def unchanged : Change := fun _ => none

def Change.value (σ : Change) (v : Value) (s : Span) : Value :=
  match σ s with
  | some t => .text t
  | none => v

mutual

def Expr.forget (σ : Change) : Expr → Expr
  | .name n => .name n
  | .constant v m s => .constant (σ.value v s) m default
  | .joined ps => .joined ps
  | .tuple es => .tuple (forgetAll σ es)
  | .list es => .list (forgetAll σ es)
  | .set es => .set (forgetAll σ es)
  | .dict es => .dict (forgetEntries σ es)
  | .unary o e => .unary o (e.forget σ)
  | .binary a o b => .binary (a.forget σ) o (b.forget σ)
  | .compare a rest => .compare (a.forget σ) (forgetRest σ rest)
  | .conjunction es => .conjunction (forgetAll σ es)
  | .disjunction es => .disjunction (forgetAll σ es)
  | .conditional a b c => .conditional (a.forget σ) (b.forget σ) (c.forget σ)
  | .lambda ps b => .lambda (ps.forget σ) (b.forget σ)
  | .attribute e n => .attribute (e.forget σ) n
  | .subscript e i => .subscript (e.forget σ) (i.forget σ)
  | .slice a b c => .slice (forgetOption σ a) (forgetOption σ b) (forgetOption σ c)
  | .call f as ks => .call (f.forget σ) (forgetAll σ as) (forgetKeywords σ ks)
  | .starred e => .starred (e.forget σ)
  | .assigned a b => .assigned (a.forget σ) (b.forget σ)
  | .await e => .await (e.forget σ)
  | .yield e => .yield (forgetOption σ e)
  | .yieldFrom e => .yieldFrom (e.forget σ)
  | .listOf e cs => .listOf (e.forget σ) (forgetClauses σ cs)
  | .setOf e cs => .setOf (e.forget σ) (forgetClauses σ cs)
  | .dictOf k v cs => .dictOf (k.forget σ) (v.forget σ) (forgetClauses σ cs)
  | .generator e cs => .generator (e.forget σ) (forgetClauses σ cs)

def forgetAll (σ : Change) : List Expr → List Expr
  | [] => []
  | e :: es => e.forget σ :: forgetAll σ es

def forgetOption (σ : Change) : Option Expr → Option Expr
  | none => none
  | some e => some (e.forget σ)

def forgetEntries (σ : Change) : List (Option Expr × Expr) → List (Option Expr × Expr)
  | [] => []
  | (k, v) :: es => (forgetOption σ k, v.forget σ) :: forgetEntries σ es

def forgetRest (σ : Change) : List (CompareOp × Expr) → List (CompareOp × Expr)
  | [] => []
  | (o, e) :: es => (o, e.forget σ) :: forgetRest σ es

def forgetKeywords (σ : Change) : List (Option String × Expr) → List (Option String × Expr)
  | [] => []
  | (k, e) :: es => (k, e.forget σ) :: forgetKeywords σ es

def Clause.forget (σ : Change) : Clause → Clause
  | .mk a t s cs => .mk a (t.forget σ) (s.forget σ) (forgetAll σ cs)

def forgetClauses (σ : Change) : List Clause → List Clause
  | [] => []
  | c :: cs => c.forget σ :: forgetClauses σ cs

def Parameter.forget (σ : Change) : Parameter → Parameter
  | .mk n h d => .mk n (forgetOption σ h) (forgetOption σ d)

def forgetParameters (σ : Change) : List Parameter → List Parameter
  | [] => []
  | p :: ps => p.forget σ :: forgetParameters σ ps

def forgetParameter (σ : Change) : Option Parameter → Option Parameter
  | none => none
  | some p => some (p.forget σ)

def Parameters.forget (σ : Change) : Parameters → Parameters
  | .mk p r v k o => .mk (forgetParameters σ p) (forgetParameters σ r) (forgetParameter σ v)
      (forgetParameters σ k) (forgetParameter σ o)

end

lemma sizeOf_entry_lt {α β : Type} [SizeOf α] [SizeOf β] {e : α × β} {es : List (α × β)} (h : e ∈ es) :
    sizeOf e.1 + sizeOf e.2 < sizeOf es := by
  have := List.sizeOf_lt_of_mem h
  obtain ⟨a, b⟩ := e
  simp only [Prod.mk.sizeOf_spec] at this ⊢
  omega

mutual

def Expr.spans : Expr → List Span
  | .name _ | .joined _ => []
  | .constant _ _ s => [s]
  | .tuple es | .list es | .set es | .conjunction es | .disjunction es => es.flatMap Expr.spans
  | .dict es => es.flatMap fun e => spansOption e.1 ++ e.2.spans
  | .unary _ e | .attribute e _ | .starred e | .await e | .yieldFrom e => e.spans
  | .binary a _ b | .subscript a b | .assigned a b => a.spans ++ b.spans
  | .compare a rest => a.spans ++ rest.flatMap fun e => e.2.spans
  | .conditional a b c => a.spans ++ b.spans ++ c.spans
  | .lambda ps b => ps.spans ++ b.spans
  | .slice a b c => spansOption a ++ spansOption b ++ spansOption c
  | .call f as ks => f.spans ++ as.flatMap Expr.spans ++ ks.flatMap fun e => e.2.spans
  | .yield e => spansOption e
  | .listOf e cs | .setOf e cs | .generator e cs => e.spans ++ cs.flatMap Clause.spans
  | .dictOf k v cs => k.spans ++ v.spans ++ cs.flatMap Clause.spans
termination_by e => sizeOf e
decreasing_by
  all_goals simp_wf
  all_goals try omega
  all_goals first
    | (have hsize := List.sizeOf_lt_of_mem ‹_ ∈ _›; omega)
    | (have hsize := sizeOf_entry_lt ‹_ ∈ _›; omega)

def spansOption : Option Expr → List Span
  | none => []
  | some e => e.spans
termination_by e => sizeOf e

def Clause.spans : Clause → List Span
  | .mk _ t s cs => t.spans ++ s.spans ++ cs.flatMap Expr.spans
termination_by c => sizeOf c

def Parameter.spans : Parameter → List Span
  | .mk _ h d => spansOption h ++ spansOption d
termination_by p => sizeOf p

def spansParameter : Option Parameter → List Span
  | none => []
  | some p => p.spans
termination_by p => sizeOf p

def Parameters.spans : Parameters → List Span
  | .mk p r v k o => p.flatMap Parameter.spans ++ r.flatMap Parameter.spans ++ spansParameter v ++
      k.flatMap Parameter.spans ++ spansParameter o
termination_by ps => sizeOf ps

end

mutual

def Stmt.forget (σ : Change) : Stmt → Stmt
  | .function n ds ps r b =>
    .function n (forgetAll σ ds) (ps.forget σ) (forgetOption σ r) (forgetBody σ b)
  | .classDef n b => .classDef n (forgetBody σ b)
  | .imports _ ms => .imports 0 ms
  | .importsFrom _ l m => .importsFrom 0 l m
  | .expression e => .expression (e.forget σ)
  | .branch a b => .branch (forgetBody σ a) (forgetBody σ b)
  | .loop a b => .loop (forgetBody σ a) (forgetBody σ b)
  | .scope b => .scope (forgetBody σ b)
  | .guarded b hs o f =>
    .guarded (forgetBody σ b) (forgetBodies σ hs) (forgetBody σ o) (forgetBody σ f)
  | .choice cs => .choice (forgetBodies σ cs)
  | .other => .other

def forgetBody (σ : Change) : List Stmt → List Stmt
  | [] => []
  | s :: ss => s.forget σ :: forgetBody σ ss

def forgetBodies (σ : Change) : List (List Stmt) → List (List Stmt)
  | [] => []
  | b :: bs => forgetBody σ b :: forgetBodies σ bs

end

def Stmt.spans : Stmt → List Span
  | .function _ ds ps r b => ds.flatMap Expr.spans ++ ps.spans ++ spansOption r ++ b.flatMap Stmt.spans
  | .classDef _ b | .scope b => b.flatMap Stmt.spans
  | .imports _ _ | .importsFrom _ _ _ | .other => []
  | .expression e => e.spans
  | .branch a b | .loop a b => a.flatMap Stmt.spans ++ b.flatMap Stmt.spans
  | .guarded b hs o f => b.flatMap Stmt.spans ++ hs.flatMap (List.flatMap Stmt.spans) ++
      o.flatMap Stmt.spans ++ f.flatMap Stmt.spans
  | .choice cs => cs.flatMap (List.flatMap Stmt.spans)
termination_by s => sizeOf s
decreasing_by
  all_goals simp_wf
  all_goals first
    | (have hsize := List.sizeOf_lt_of_mem ‹_ ∈ _›; omega)
    | (have hsize := List.sizeOf_lt_of_mem ‹_ ∈ _›; have := List.sizeOf_lt_of_mem ‹_ ∈ (_ : List (List Stmt))›; omega)

attribute [simp] Expr.forget Expr.spans Clause.forget Clause.spans Parameter.forget Parameter.spans
  Parameters.forget Parameters.spans Stmt.forget Stmt.spans

section Lists

variable (σ : Change)

@[simp] lemma forgetAll_eq (es : List Expr) : forgetAll σ es = es.map (Expr.forget σ) := by
  induction es with
  | nil => rfl
  | cons e es ih => simp [forgetAll, ih]

@[simp] lemma forgetOption_eq (e : Option Expr) : forgetOption σ e = e.map (Expr.forget σ) := by
  cases e <;> rfl

@[simp] lemma forgetEntries_eq (es : List (Option Expr × Expr)) :
    forgetEntries σ es = es.map (Prod.map (Option.map (.forget σ)) (.forget σ)) := by
  induction es with
  | nil => rfl
  | cons e es ih => simp [forgetEntries, ih, Prod.map]

@[simp] lemma forgetRest_eq (es : List (CompareOp × Expr)) :
    forgetRest σ es = es.map (Prod.map id (.forget σ)) := by
  induction es with
  | nil => rfl
  | cons e es ih => simp [forgetRest, ih, Prod.map]

@[simp] lemma forgetKeywords_eq (es : List (Option String × Expr)) :
    forgetKeywords σ es = es.map (Prod.map id (.forget σ)) := by
  induction es with
  | nil => rfl
  | cons e es ih => simp [forgetKeywords, ih, Prod.map]

@[simp] lemma forgetClauses_eq (cs : List Clause) :
    forgetClauses σ cs = cs.map (Clause.forget σ) := by
  induction cs with
  | nil => rfl
  | cons c cs ih => simp [forgetClauses, ih]

@[simp] lemma forgetParameters_eq (ps : List Parameter) :
    forgetParameters σ ps = ps.map (.forget σ) := by
  induction ps with
  | nil => rfl
  | cons p ps ih => simp [forgetParameters, ih]

@[simp] lemma forgetParameter_eq (p : Option Parameter) :
    forgetParameter σ p = p.map (.forget σ) := by
  cases p <;> rfl

@[simp] lemma forgetBody_eq (b : List Stmt) : forgetBody σ b = b.map (Stmt.forget σ) := by
  induction b with
  | nil => rfl
  | cons s b ih => simp [forgetBody, ih]

@[simp] lemma forgetBodies_eq (bs : List (List Stmt)) :
    forgetBodies σ bs = bs.map (List.map (.forget σ)) := by
  induction bs with
  | nil => rfl
  | cons b bs ih => simp [forgetBodies, ih]

@[simp] lemma spansOption_eq (e : Option Expr) : spansOption e = e.toList.flatMap Expr.spans := by
  cases e <;> simp [spansOption]

@[simp] lemma spansParameter_eq (p : Option Parameter) :
    spansParameter p = p.toList.flatMap Parameter.spans := by
  cases p <;> simp [spansParameter]

end Lists

/-- Trees, and what readers make of them, apart from the places of literals. -/
class Located (α : Type) where
  forget : Change → α → α
  spans : α → List Span

namespace Located

variable {α β : Type} [Located α] [Located β] (σ : Change)

instance : Located Expr := ⟨Expr.forget, Expr.spans⟩
instance : Located Clause := ⟨Clause.forget, Clause.spans⟩
instance : Located Parameter := ⟨Parameter.forget, Parameter.spans⟩
instance : Located Parameters := ⟨Parameters.forget, Parameters.spans⟩
instance : Located Stmt := ⟨Stmt.forget, Stmt.spans⟩
instance : Located (List α) := ⟨fun σ => List.map (forget σ), List.flatMap spans⟩
instance : Located (Option α) := ⟨fun σ => Option.map (forget σ), fun a => a.toList.flatMap spans⟩
instance : Located (α × β) := ⟨fun σ => Prod.map (forget σ) (forget σ), fun p => spans p.1 ++ spans p.2⟩

@[simp] lemma forget_expr : (forget σ : Expr → Expr) = Expr.forget σ := rfl
@[simp] lemma forget_clause : (forget σ : Clause → Clause) = Clause.forget σ := rfl
@[simp] lemma forget_parameter : (forget σ : Parameter → Parameter) = Parameter.forget σ := rfl
@[simp] lemma forget_parameters : (forget σ : Parameters → Parameters) = Parameters.forget σ := rfl
@[simp] lemma forget_stmt : (forget σ : Stmt → Stmt) = Stmt.forget σ := rfl
@[simp] lemma forget_list : (forget σ : List α → List α) = List.map (forget σ) := rfl
@[simp] lemma forget_option : (forget σ : Option α → Option α) = Option.map (forget σ) := rfl
@[simp] lemma forget_prod : (forget σ : α × β → α × β) = Prod.map (forget σ) (forget σ) := rfl

@[simp] lemma spans_expr : (spans : Expr → List Span) = Expr.spans := rfl
@[simp] lemma spans_clause : (spans : Clause → List Span) = Clause.spans := rfl
@[simp] lemma spans_parameter : (spans : Parameter → List Span) = Parameter.spans := rfl
@[simp] lemma spans_parameters : (spans : Parameters → List Span) = Parameters.spans := rfl
@[simp] lemma spans_stmt : (spans : Stmt → List Span) = Stmt.spans := rfl
@[simp] lemma spans_list : (spans : List α → List Span) = List.flatMap spans := rfl
@[simp] lemma spans_option :
    (spans : Option α → List Span) = fun a => a.toList.flatMap spans := rfl
@[simp] lemma spans_prod : (spans : α × β → List Span) = fun p => spans p.1 ++ spans p.2 := rfl

end Located

/-- What has no literals in it. -/
class Literalless (α : Type) extends Located α where
  forget _ a := a
  spans _ := []
  forget_eq (σ : Change) : forget σ = id := by intros; rfl
  spans_eq : spans = fun _ => [] := by intros; rfl

namespace Literalless

attribute [simp] forget_eq spans_eq

variable {α β : Type} [Literalless α] [Literalless β]

instance : Literalless Unit := {}
instance : Literalless Bool := {}
instance : Literalless Nat := {}
instance : Literalless String := {}
instance : Literalless Value := {}
instance : Literalless CompareOp := {}
instance : Literalless UnaryOp := {}
instance : Literalless BinaryOp := {}

instance : Literalless (List α) where
  toLocated := inferInstance
  forget_eq σ := by simp
  spans_eq := by funext a; simp

instance : Literalless (Option α) where
  toLocated := inferInstance
  forget_eq σ := by simp
  spans_eq := by funext a; simp

instance : Literalless (α × β) where
  toLocated := inferInstance
  forget_eq σ := by simp
  spans_eq := by funext a; simp

end Literalless

end AssetCatalog.Source
