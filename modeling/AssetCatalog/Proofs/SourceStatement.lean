import AssetCatalog.Proofs.SourceGrammar

/-! The grammars of patterns and statements do not look at places. -/

namespace AssetCatalog.Source

open Located Reader

variable {text : String} {body : List Stmt} {ts : List Token}
variable {σ : Change} {s : Span} {P : List Token → Prop} {n : Nat}

namespace Pattern

lemma mirrors_capture : Mirrored σ s P n capture := by
  refine Mirrors.name.andThen fun m => .cond .failure ?_
  exact .peeked rfl fun l => .cond .failure .idle

lemma mirrors_signedNumber : Mirrored σ s P n signedNumber := by
  refine Mirrors.tryOp.discarded.andThen fun _ => .peeked rfl fun l => ?_
  split
  · exact .skip rfl .idle
  · exact .failure

lemma mirrors_numberLiteral : Mirrored σ s P n numberLiteral := by
  refine mirrors_signedNumber.andThen fun v => .peeked rfl fun l => ?_
  refine .ite .rfl (fun h => .cond .failure ?_) .idle
  obtain ⟨o, rfl⟩ : ∃ o, l = some (.op o) := by
    obtain h | h := Bool.or_eq_true_iff.1 h <;> exact ⟨_, Mirrors.eq_of_isOp h⟩
  refine .skip rfl (.peeked rfl fun l => ?_)
  split
  · exact .cond (.skipLast rfl) .failure
  · exact .failure

lemma mirrors_wordLiteral : Mirrored σ s P n wordLiteral := by
  refine .peeked rfl fun l => ?_
  split
  · exact .cond (.skipLast rfl) .failure
  · exact .failure

lemma mirrors_dottedNames : Mirrored σ s P n dottedNames := by
  refine Mirrors.name.discarded.andThen fun _ => (Mirrors.many ?_).andThen fun ms => .idle
  refine .ifTryOp ?_ .none
  exact .map Mirrors.name (by simp)

lemma mirrors_value : Mirrored σ s P n value := by
  refine mirrors_dottedNames.andThen fun m => .cond .failure ?_
  exact .peeked rfl fun l => .cond .failure .idle

lemma mirrors_star : Mirrored σ s P n star :=
  .afterOp <| .orElse mirrors_capture Mirrors.word

lemma mirrors_itemsThen {x : Reader Unit} (hx : ∀ {P n}, Mirrored σ s P n x) (close : String) :
    Mirrored σ s P n (itemsThen x close) := by
  refine .ifTryOp .idle ?_
  exact (Mirrors.commaItems hx).discarded.andThen fun _ => .op

lemma mirrors_mappingRest : Mirrored σ s P n mappingRest :=
  .afterOp <| mirrors_capture.andThen fun _ =>
    Mirrors.tryOp.discarded.andThen fun _ => .op

section Rules

variable {g : Grammar} (hg : g.Steady σ s) {x : Reader Unit} (hx : ∀ {P n}, Mirrored σ s P n x)

include hg in
lemma mirrors_literal : Mirrored σ s P n (literal g) := by
  refine .orElse mirrors_numberLiteral (.orElse (.peeked rfl fun l => ?_) mirrors_wordLiteral)
  split
  · exact hg.atom.discarded
  · exact .failure

include hx

lemma mirrors_sequence : Mirrored σ s P n (sequence x) := by
  have hitem {P n} : Mirrored σ s P n (star <|> x) := .orElse mirrors_star hx
  refine .ifTryOp (mirrors_itemsThen hitem "]") <| .afterOp <| .ifTryOp .idle ?_
  exact hitem.andThen fun _ => .afterOp <| mirrors_itemsThen hitem ")"

lemma mirrors_group : Mirrored σ s P n (group x) :=
  .afterOp <| hx.andThen fun _ => .op

include hg in
lemma mirrors_mapping : Mirrored σ s P n (mapping g x) := by
  refine .afterOp <| .ifTryOp .idle <| .ifOp mirrors_mappingRest ?_
  refine (Mirrors.commaItems ?_).andThen fun ⟨_, trailing⟩ => .peeked rfl fun l =>
    .cond mirrors_mappingRest Mirrors.op
  exact (Mirrors.orElse (mirrors_literal hg) mirrors_value).andThen fun _ => .afterOp hx

lemma mirrors_keywordItem : Mirrored σ s P n (keywordItem x) :=
  Mirrors.name.discarded.andThen fun _ => .afterOp hx

lemma mirrors_classPattern : Mirrored σ s P n (classPattern x) := by
  refine mirrors_dottedNames.discarded.andThen fun _ => .afterOp ?_
  refine .ifTryOp .idle ?_
  refine (Mirrors.commaItems ?_).andThen fun ⟨kinds, _⟩ => .afterOp ?_
  · exact .orElse ((mirrors_keywordItem hx).andThen fun _ => .idle) (hx.andThen fun _ => .idle)
  · exact .cond .idle .failure

include hg

lemma mirrors_closed : Mirrored σ s P n (closed g x) := by
  refine .orElse (mirrors_literal hg) (.orElse mirrors_capture (.orElse ?_ (.orElse mirrors_value
    (.orElse (mirrors_group hx) (.orElse (mirrors_sequence hx) (.orElse (mirrors_mapping hg hx)
    (mirrors_classPattern hx)))))))
  exact Mirrors.word.andThen fun _ => .peeked rfl fun l => .cond .failure .idle

lemma mirrors_rule : Mirrored σ s P n (rule g x) := by
  have hclosed {P n} := mirrors_closed (P := P) (n := n) hg hx
  have halternatives {P n} : Mirrored σ s P n (alternatives g x) := by
    refine hclosed.andThen fun _ => (Mirrors.many ?_).discarded
    refine .ifTryOp ?_ .none
    exact .map hclosed (by simp)
  exact halternatives.andThen fun _ => .ifTryKeyword mirrors_capture .idle

omit hx

lemma mirrors_ofDepth (depth : Nat) : Mirrored σ s P n (ofDepth g depth) := by
  induction depth generalizing P n with
  | zero => exact .failure
  | succ depth ih => exact mirrors_rule hg ih

lemma mirrors_patterns (depth : Nat) : Mirrored σ s P n (patterns g depth) := by
  refine (Mirrors.commaItems ?_).andThen fun ⟨items, trailing⟩ => ?_
  · exact .orElse (mirrors_star.andThen fun _ => .idle)
      ((mirrors_ofDepth hg depth).andThen fun _ => .idle)
  · dsimp only
    split
    · exact .failure
    · exact .idle

lemma mirrors_casePatterns : Mirrored σ s P n (casePatterns g) :=
  .lengthed fun _ => mirrors_patterns hg _

end Rules

end Pattern

namespace Stmt

lemma mirrors_dottedName : Mirrored σ s P n dottedName := by
  refine Mirrors.name.andThen fun m => (Mirrors.many ?_).andThen fun ms => .idle
  refine .ifTryOp ?_ .none
  exact .map Mirrors.name (by simp)

lemma mirrors_secondName : Mirrored σ s P n secondName :=
  .ifTryKeyword Mirrors.name.discarded .idle

lemma mirrors_importNames (line : Nat) : Mirrors σ s P n (importNames 0) (importNames line) := by
  refine mirrors_dottedName.andThen fun m => mirrors_secondName.andThen fun _ => ?_
  refine (Mirrors.many ?_).andThen fun ms => .made (by simp)
  refine .ifTryOp ?_ .none
  exact mirrors_dottedName.andThen fun m => mirrors_secondName.andThen fun _ => .idle

lemma mirrors_importTargets : Mirrored σ s P n importTargets := by
  have hitem {P n} : Mirrored σ s P n importedItem :=
    Mirrors.name.discarded.andThen fun _ => mirrors_secondName
  refine .ifTryOp .idle ?_
  refine .ifTryOp ?_ ?_
  · exact (Mirrors.commaItems hitem).discarded.andThen fun _ => .op
  · exact (Mirrors.commaItems hitem).andThen fun ⟨_, trailing⟩ => .cond .failure .idle

lemma mirrors_importFrom (line : Nat) : Mirrors σ s P n (importFrom 0) (importFrom line) := by
  refine (Mirrors.many ?_).andThen fun dots => .peeked rfl fun l => ?_
  · refine .ifTryOp .idle ?_
    exact .ifTryOp .idle .none
  · refine .join .rfl .none (.map mirrors_dottedName (by simp)) fun m => ?_
    refine .afterKeyword <| mirrors_importTargets.andThen fun _ => ?_
    exact .made (by simp)

@[simp] lemma isSingleTarget_forget (e : Expr) :
    isSingleTarget (e.forget σ) = isSingleTarget e := by
  cases e <;> rfl

mutual

theorem isDeletable_forget (e : Expr) : isDeletable (e.forget σ) = isDeletable e := by
  cases e with
  | tuple es => simpa [isDeletable] using allDeletable_forget es
  | list es => simpa [isDeletable] using allDeletable_forget es
  | _ => rfl

theorem allDeletable_forget (es : List Expr) :
    allDeletable (es.map (Expr.forget σ)) = allDeletable es := by
  cases es with
  | nil => rfl
  | cons e es => simp [allDeletable, isDeletable_forget e, allDeletable_forget es]

end

lemma mirrors_other : Mirrored σ s P n (pure Stmt.other) := .made (by simp)

section Rules

variable {g : Grammar} (hg : g.Steady σ s)

include hg

lemma mirrors_assignedValue : Mirrored σ s P n (assignedValue g) := by
  refine hg.yieldedOrExpressions.bind fun e => (Mirrors.always (.fold (fun e => ?_) e) ?_).discarded
  · let := Mirrors.extending e
    refine .ifOp (.condOf (by simp [Expr.isTarget_forget]) ?_ .failure) (.pure rfl (Nat.le_refl _))
    exact .skip rfl (.map hg.yieldedOrExpressions fun _ => ⟨rfl, by simp⟩)
  · omega

lemma mirrors_expressionOrAssignment : Mirrored σ s P n (expressionOrAssignment g) := by
  refine hg.yieldedOrExpressions.bind fun e => .peeked rfl fun l => ?_
  refine .ite .rfl (fun h => ?_) <| .ite .rfl (fun h => ?_) <| .ite .rfl (fun h => ?_) (.made (by simp))
  · rw [Mirrors.eq_of_isOp h]
    refine .condOf (by simp [Expr.isTarget_forget]) ?_ .failure
    exact .skip rfl ((mirrors_assignedValue hg).andThen fun _ => mirrors_other)
  · rw [Mirrors.eq_of_isOp h]
    refine .condOf (by simp) (.skip rfl ?_) .failure
    refine hg.expression.discarded.andThen fun _ => .ifTryOp ?_ mirrors_other
    exact hg.yieldedOrExpressions.discarded.andThen fun _ => mirrors_other
  · obtain ⟨o, rfl⟩ : ∃ o, l = some (.op o) := by
      unfold isUpdate at h
      split at h
      · exact ⟨_, rfl⟩
      · cases h
    refine .condOf (by simp) (.skip rfl ?_) .failure
    exact hg.yieldedOrExpressions.discarded.andThen fun _ => mirrors_other

lemma mirrors_deletion : Mirrored σ s P n (deletion g) := by
  refine (Mirrors.commaItems hg.bitOr).bind fun ⟨es, _⟩ => .peeked rfl fun l => ?_
  exact .condOf (by simp [allDeletable_forget]) mirrors_other .failure

lemma mirrors_simpleAt (line : Nat) : Mirrors σ s P n (simpleAt g 0) (simpleAt g line) := by
  refine .peeked rfl fun l => ?_
  split
  next k =>
    refine .cond (.skip rfl mirrors_other) ?_
    refine .cond (.skip rfl (mirrors_importNames line)) ?_
    refine .cond (.skip rfl (mirrors_importFrom line)) ?_
    refine .cond (.skip rfl ?_) ?_
    · exact hg.starExpressions.maybe.discarded.andThen fun _ => mirrors_other
    refine .cond (.skip rfl ?_) ?_
    · refine hg.expression.maybe.bind fun e => ?_
      cases e with
      | none => exact mirrors_other
      | some e =>
        exact .ifTryKeyword (hg.expression.discarded.andThen fun _ => mirrors_other) mirrors_other
    refine .cond (.skip rfl ?_) ?_
    · exact (Mirrors.commaItems Mirrors.name).andThen fun ⟨_, trailing⟩ => .cond .failure mirrors_other
    refine .cond (.skip rfl (mirrors_deletion hg)) ?_
    refine .cond (.skip rfl ?_) <| mirrors_expressionOrAssignment hg
    refine hg.expression.discarded.andThen fun _ => .ifTryOp ?_ mirrors_other
    exact hg.expression.discarded.andThen fun _ => mirrors_other
  next => exact mirrors_expressionOrAssignment hg

lemma mirrors_simple : Mirrored σ s P n (simple g) :=
  .lined fun line => mirrors_simpleAt hg line

lemma mirrors_simpleLine : Mirrored σ s P n (simpleLine g) := by
  refine (mirrors_simple hg).bind fun first => (Mirrors.many ?_).bind fun more => ?_
  · exact .ifOp (Mirrors.afterOp <| mirrors_simple hg).maybe .none
  · exact Mirrors.tryOp.discarded.andThen fun _ => Mirrors.newline.andThen fun _ => .made (by simp)

lemma mirrors_withItem : Mirrored σ s P n (withItem g) := by
  refine hg.expression.discarded.andThen fun _ => .ifTryKeyword ?_ .idle
  refine Mirrors.tryOp.andThen fun b => .join .rfl (.map hg.bitOr (by simp)) hg.bitOr fun e => ?_
  exact .condOf (by simp [Expr.isTarget_forget]) .idle .failure

variable {block : Reader (List Stmt)} (hb : ∀ {P n}, Mirrored σ s P n block)

include hb

omit hg in
lemma mirrors_elseBlock : Mirrored σ s P n (elseBlock block) :=
  .ifTryKeyword (.afterOp hb) (.made (by simp))

omit hg hb in
@[simp] lemma forget_foldr_branch (arms : List (List Stmt)) (last : List Stmt) :
    (arms.foldr (fun body rest => [Stmt.branch body rest]) last).map (Stmt.forget σ) =
      (arms.map (List.map (Stmt.forget σ))).foldr (fun body rest => [Stmt.branch body rest])
        (last.map (Stmt.forget σ)) := by
  induction arms with
  | nil => rfl
  | cons arm arms ih => simp [ih]

omit hg hb in
@[simp] lemma spans_foldr_branch (arms : List (List Stmt)) (last : List Stmt) :
    (arms.foldr (fun body rest => [Stmt.branch body rest]) last).flatMap Stmt.spans =
      arms.flatMap (List.flatMap Stmt.spans) ++ last.flatMap Stmt.spans := by
  induction arms with
  | nil => rfl
  | cons arm arms ih => simp [ih]

lemma mirrors_branchRule : Mirrored σ s P n (branchRule g block) := by
  have harm {P n} : Mirrored σ s P n (do discard g.named; op ":"; block) :=
    hg.named.discarded.andThen fun _ => .afterOp hb
  refine .afterKeyword <| harm.bind fun first => (Mirrors.many ?_).bind
    fun more => (mirrors_elseBlock hb).bind fun last => .made (by simp; omega)
  refine .ifTryKeyword ?_ .none
  exact .map harm (by simp)

lemma mirrors_whileRule : Mirrored σ s P n (whileRule g block) := by
  refine .afterKeyword <| hg.named.discarded.andThen fun _ => ?_
  exact .afterOp <| hb.bind fun body => (mirrors_elseBlock hb).bind fun orelse => .made (by simp)

lemma mirrors_forRule : Mirrored σ s P n (forRule g block) := by
  refine .afterKeyword <| hg.targets.discarded.andThen fun _ => ?_
  refine .afterKeyword <| hg.starExpressions.discarded.andThen fun _ => ?_
  exact .afterOp <| hb.bind fun body => (mirrors_elseBlock hb).bind fun orelse => .made (by simp)

lemma mirrors_withRule : Mirrored σ s P n (withRule g block) := by
  have hitems {P n} : Mirrored σ s P n (commaItems (withItem g)) :=
    .commaItems (mirrors_withItem hg)
  refine .afterKeyword <| (Mirrors.orElse ?_ ?_).andThen fun _ => hb.bind fun body => .made (by simp)
  · exact .afterOp <| hitems.discarded.andThen fun _ => .afterOp Mirrors.op
  · exact hitems.andThen fun ⟨_, trailing⟩ => .optional .rfl .failure fun _ => .op

lemma mirrors_handler : Mirrored σ s P n (handler g block) := by
  refine .ifTryKeyword ?_ .none
  refine Mirrors.tryOp.andThen fun starred => ?_
  have hbody {P} : Mirrors σ s P n (do op ":"; let body ← block; pure (some (starred, body)))
      (do op ":"; let body ← block; pure (some (starred, body))) :=
    .afterOp <| hb.bind fun body => .made (by simp)
  refine .ifOp (.optional .rfl .failure fun _ => hbody) ?_
  refine hg.expression.discarded.andThen fun _ => Mirrors.tryKeyword.andThen fun b => ?_
  exact .optional .rfl Mirrors.name.discarded fun _ => hbody

omit hg in
lemma mirrors_finalBlock : Mirrored σ s P n (finalBlock block) := by
  refine .ifTryKeyword ?_ .none
  exact .afterOp <| .map hb (by simp)

lemma mirrors_tryRule : Mirrored σ s P n (tryRule g block) := by
  refine .afterKeyword <| .afterOp ?_
  refine hb.bind fun body => (Mirrors.many (mirrors_handler hg hb)).bind fun handlers => ?_
  refine .optional (by simp) .failure fun _ => ?_
  refine .join (by simp) (.made (by simp)) (mirrors_elseBlock hb) fun orelse => ?_
  refine (mirrors_finalBlock hb).bind fun final => .condOf (by simp) .failure ?_
  cases final with
  | none => exact .pure (by simp) (by simp [List.flatMap_map]; omega)
  | some final => exact .pure (by simp) (by simp [List.flatMap_map]; omega)

lemma mirrors_functionRule (ds : List Expr) (hn : (Located.spans ds).count s ≤ n) :
    Mirrors σ s P n (functionRule g block (Located.forget σ ds)) (functionRule g block ds) := by
  simp at hn
  refine Mirrors.tryKeyword.discarded.andThen fun _ => .afterKeyword ?_
  refine Mirrors.name.andThen fun m => .afterOp ?_
  refine (hg.parameters true ")").bind fun ps => .afterOp ?_
  refine Mirrors.tryOp.andThen fun b => .join .rfl (.map hg.expression (by simp)) .none fun r => ?_
  exact .afterOp <| hb.bind fun body => .made (by simp; omega)

lemma mirrors_classRule : Mirrored σ s P n (classRule g block) := by
  refine .afterKeyword <| Mirrors.name.andThen fun m => ?_
  refine Mirrors.tryOp.andThen fun b => .optional .rfl (hg.arguments false).discarded fun _ => ?_
  exact .afterOp <| hb.bind fun body => .made (by simp)

lemma mirrors_decorated : Mirrored σ s P n (decorated g block) := by
  refine (Mirrors.many ?_).bind fun ds => .ifKeyword ((mirrors_classRule hg hb).always (Nat.le_refl _))
    (mirrors_functionRule hg hb ds (by omega))
  refine .ifTryOp ?_ .none
  exact hg.named.bind fun e => Mirrors.newline.andThen fun _ => .made (by simp)

lemma mirrors_asyncRule {k : String} (hP : ∀ ts, P ts → Next (some (.keyword k)) ts) :
    Mirrored σ s P n (asyncRule g block) := by
  refine .peekedSecond (fun _ _ => rfl) fun l => .cond (mirrors_functionRule hg hb [] (by simp)) ?_
  refine .skipOf rfl (fun _ h => hP _ h.1) ?_
  exact .cond (mirrors_forRule hg hb) <| mirrors_withRule hg hb

lemma mirrors_caseRule : Mirrored σ s P n (caseRule g block) := by
  refine .peeked rfl fun l => ?_
  split
  · refine .skip rfl ((Pattern.mirrors_casePatterns hg).andThen fun _ => ?_)
    refine Mirrors.tryKeyword.andThen fun b => .optional .rfl hg.named.discarded
      fun _ => .afterOp <| hb.bind fun body => .made (by simp)
  · exact .none

omit hg hb in
lemma mirrors_openBlock : Mirrored σ s P n openBlock := by
  refine Mirrors.newline.andThen fun _ => .peeked rfl fun l => ?_
  split
  · exact .skipLast rfl
  · exact .failure

omit hg hb in
lemma mirrors_closeBlock : Mirrored σ s P n closeBlock := by
  refine .peeked rfl fun l => ?_
  split
  · exact .skipLast rfl
  · exact .failure

lemma mirrors_casesRule : Mirrored σ s P n (casesRule g block) := by
  refine .afterOp <| mirrors_openBlock.andThen fun _ =>
    (Mirrors.many (mirrors_caseRule hg hb)).bind fun cases => ?_
  exact .optional (by simp) .failure fun _ => mirrors_closeBlock.andThen fun _ => .made (by simp)

lemma mirrors_matchRule : Mirrored σ s P n (matchRule g block) := by
  refine Mirrors.word.andThen fun _ => (Mirrors.commaItems hg.starNamed).bind
    fun ⟨items, trailing⟩ => ?_
  rcases items with _ | ⟨e, _ | ⟨e', es⟩⟩
  · exact mirrors_casesRule hg hb
  · cases e
    case starred =>
      cases trailing
      · exact .failure
      · exact mirrors_casesRule hg hb
    all_goals exact mirrors_casesRule hg hb
  · cases e <;> exact mirrors_casesRule hg hb

lemma mirrors_statement : Mirrored σ s P n (statement g block) := by
  have hone {Q : List Token → Prop} {r : Reader Stmt} (hr : Mirrors σ s Q 0 r r) :
      Mirrors σ s Q n (do let s ← r; pure [s]) (do let s ← r; pure [s]) :=
    hr.bind fun s => .made (by simp)
  refine .peeked rfl fun l => ?_
  split
  · exact hone (mirrors_decorated hg hb)
  · exact .orElse (hone (mirrors_matchRule hg hb)) (mirrors_simpleLine hg)
  · refine .cond (hone (mirrors_functionRule hg hb [] (by simp))) ?_
    refine .cond (hone (mirrors_classRule hg hb)) ?_
    refine .cond (hone (mirrors_branchRule hg hb)) ?_
    refine .cond (hone (mirrors_forRule hg hb)) ?_
    refine .cond (hone (mirrors_whileRule hg hb)) ?_
    refine .cond (hone (mirrors_tryRule hg hb)) ?_
    refine .cond (hone (mirrors_withRule hg hb)) ?_
    exact .cond (hone (mirrors_asyncRule hg hb fun _ h => h.2)) <| mirrors_simpleLine hg
  · exact mirrors_simpleLine hg

lemma mirrors_statements : Mirrored σ s P n (statements g block) := by
  refine (Mirrors.many (.peeked rfl fun l => ?_)).bind fun groups => .pure ?_ ?_
  · split
    · exact .none
    · exact .none
    · exact .map (mirrors_statement hg hb) (by simp)
  · simp
  · have h : groups.flatten.flatMap Stmt.spans = groups.flatMap (List.flatMap Stmt.spans) := by
      rw [← List.flatMap_id, List.flatMap_assoc]
      rfl
    simp [h]

omit hb

lemma mirrors_blockOfDepth (depth : Nat) : Mirrored σ s P n (blockOfDepth g depth) := by
  induction depth generalizing P n with
  | zero => exact .failure
  | succ depth ih =>
    refine .peeked rfl fun l => ?_
    split
    · refine mirrors_openBlock.andThen fun _ => (mirrors_statements hg ih).bind fun body => ?_
      refine .optional (by simp) .failure fun _ => mirrors_closeBlock.andThen fun _ => ?_
      exact .made (by simp)
    · exact mirrors_simpleLine hg

end Rules

def ofTokens (ts : List Token) : Option (List Stmt × List Token) :=
  statements (.ofTokens ts) (blockOfDepth (.ofTokens ts) depthLimit) ts

lemma parse_eq_ok :
    parse text = .ok body ↔ ∃ ts, Token.ofText text.toList = .ok ts ∧ ofTokens ts = some (body, []) := by
  unfold parse
  cases hts : Token.ofText text.toList with
  | error e => simp [bind, Except.bind]
  | ok ts =>
    simp only [bind, Except.bind, Except.ok.injEq, exists_eq_left', ofTokens, StateT.run]
    split
    next b h => simp [h, pure, Except.pure]
    next h =>
      refine ⟨fun h' => ?_, fun h' => absurd h' (h body)⟩
      cases h'

lemma lone_unchanged (ts : List Token) : Lone unchanged ts := by
  induction ts with
  | nil => trivial
  | cons t ts ih => exact ⟨fun v hv => by simp [unchanged] at hv, fun _ _ _ _ => ⟨rfl, rfl, rfl⟩, ih⟩

lemma levels_forget {t : Token} (ht : t.Fits σ) :
    Grammar.levels (t.forget σ) = Grammar.levels t := by
  cases hv : σ t.span with
  | none => simp [Token.forget, hv, Grammar.levels]
  | some v =>
    obtain ⟨-, b, hb, -⟩ := ht v hv
    simp [Token.forget, hv, Grammar.levels, hb]

lemma grammar_forget (hl : Lone σ ts) :
    Grammar.ofTokens (ts.map (Token.forget σ)) = Grammar.ofTokens ts := by
  have h : (ts.map (Token.forget σ)).map Grammar.levels = ts.map Grammar.levels := by
    induction ts with
    | nil => rfl
    | cons t ts ih => simp [levels_forget hl.1, ih hl.2.2]
  rw [Grammar.ofTokens, h, Grammar.ofTokens]

lemma mirrors_ofTokens (σ : Change) (s : Span) (ts : List Token) : Mirrors σ s (fun _ => True) 0
      (statements (.ofTokens ts) (blockOfDepth (.ofTokens ts) depthLimit))
      (statements (.ofTokens ts) (blockOfDepth (.ofTokens ts) depthLimit)) :=
  have hg : (Grammar.ofTokens ts).Steady σ s := Grammar.steady_ofDepth σ s _
  mirrors_statements hg (mirrors_blockOfDepth hg _)

lemma ofTokens_forget (hl : Lone σ ts) : ofTokens (ts.map (Token.forget σ)) =
      (ofTokens ts).map (Prod.map (List.map (Stmt.forget σ)) (List.map (Token.forget σ))) := by
  rw [ofTokens, grammar_forget hl]
  exact (mirrors_ofTokens σ default ts).eq ts hl trivial

lemma exists_parse_eq {new : String} {ts' : List Token}
    (ht : Token.ofText text.toList = .ok ts) (hn : Token.ofText new.toList = .ok ts')
    (hl : Lone σ ts) (hts : ts'.map (Token.forget unchanged) = ts.map (Token.forget σ))
    (hp : parse text = .ok body) :
    ∃ body', parse new = .ok body' ∧
      body'.map (Stmt.forget unchanged) = body.map (Stmt.forget σ) := by
  obtain ⟨_, ht', hb⟩ := parse_eq_ok.1 hp
  obtain rfl : ts = _ := by simpa [ht] using ht'
  have he : (ofTokens ts').map (Prod.map (List.map (Stmt.forget unchanged))
      (List.map (Token.forget unchanged))) = some (body.map (Stmt.forget σ), []) := by
    rw [← ofTokens_forget (lone_unchanged ts'), hts, ofTokens_forget hl, hb]
    rfl
  obtain ⟨⟨body', rest⟩, hb', he⟩ := Option.map_eq_some_iff.1 he
  obtain ⟨hbody, hrest⟩ := Prod.mk.inj he
  obtain rfl : rest = [] := by simpa using hrest
  exact ⟨body', parse_eq_ok.2 ⟨ts', hn, hb'⟩, hbody⟩

lemma count_spans_le
    (ht : Token.ofText text.toList = .ok ts) (hp : parse text = .ok body) (s : Span) :
    (body.flatMap Stmt.spans).count s ≤ (places false ts).count s := by
  obtain ⟨_, ht', hb⟩ := parse_eq_ok.1 hp
  obtain rfl : ts = _ := by simpa [ht] using ht'
  obtain ⟨-, hc⟩ := (mirrors_ofTokens unchanged s ts).kept ts body [] (lone_unchanged ts) trivial hb
  exact hc

end Stmt

end AssetCatalog.Source
