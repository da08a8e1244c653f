import AssetCatalog.Proofs.AssetIndex
import AssetCatalog.Proofs.SchemaVerdicts

/-!
# Validating the folders of a subcategory

All are validated exactly if each can be judged; the first that cannot hides those behind it.
-/

namespace AssetCatalog

open List

@[simp] lemma World.logged_printed (w : World) (es : List LogEntry) (ls : List String) :
    (w.logged es).printed ls = (w.printed ls).logged es := rfl

@[simp] lemma Run.isFile_apply (p : Path) (site : Site) (w : World) :
    Run.isFile p site w = (.ok (w.tree.isFile (site.home.join p).names), w) := by
  simp [Run.isFile]

namespace Metadata

open Run (Logs attempt_apply bind_apply bind_of_eq isFile_apply)
open AssetCatalog.Readme (itemsIn folderItems_apply)

variable {site : Site} {t : Tree} {w : World} {p q : Path}
variable {now : Moment} {v : Value}

/-! ## The owners of a folder -/

def ownersVerdict (site : Site) (t : Tree) (p : Path) : Except Fault Unit :=
  if t.isFile (site.home.join p).names then do
    let c ← t.read (site.home.join p).names
    if namesApprover (readableLines c) then pure ()
    else
      let _ ← c.lineText
      refuse s!"OWNERS file at {p.text} requires 1+ approver under heading 'approvers:'."
  else refuse s!"{p.text} is not a valid filepath."

lemma checkOwners_logs (p : Path) (site : Site) (w : World) :
    Logs site w (checkOwners p) (ownersVerdict site w.tree p) := by
  apply Logs.after (isFile_apply p site w)
  unfold ownersVerdict
  cases w.tree.isFile (site.home.join p).names with
  | false => exact .of_eq rfl
  | true =>
    refine Logs.bind (.of_eq (Run.content_apply p site w)) fun c es _ => ?_
    split
    · exact .log
    · exact .bind .ofExcept fun _ _ _ => .of_eq rfl

def OwnersPass (site : Site) (t : Tree) (p : Path) : Prop :=
  ∃ c, t.read (site.home.join p).names = .ok c ∧ namesApprover (readableLines c) = true

/-- Owners that the check takes or refuses: if there is a file, then it names an approver in front of
any bytes that are no text, or it has no such bytes. -/
def OwnersJudgeable (site : Site) (t : Tree) (p : Path) : Prop :=
  ∀ c, t.read (site.home.join p).names = .ok c →
    namesApprover (readableLines c) = true ∨ ∃ s, c.lineText = .ok s

lemma isFile_iff_read {l : Location} : t.isFile l ↔ ∃ c, t.read l = .ok c := by
  unfold Tree.isFile Tree.read
  rcases t.find l with e | (c | _)
  · simp [bind, Except.bind]
  · simp
  · simp

lemma ownersVerdict_eq_ok : ownersVerdict site t p = .ok () ↔ OwnersPass site t p := by
  unfold ownersVerdict OwnersPass
  by_cases hfile : t.isFile (site.home.join p).names
  · obtain ⟨c, hc⟩ := isFile_iff_read.mp hfile
    rw [if_pos hfile, hc, except_ok_bind]
    by_cases happrover : namesApprover (readableLines c) = true <;>
      simp [happrover, except_bind_eq_ok]
  · rw [if_neg hfile]
    refine iff_of_false refuse_ne_ok fun ⟨c, hc, _⟩ => hfile (isFile_iff_read.mpr ⟨c, hc⟩)

lemma decides_lineText_iff {c : Content} : Within Refusal c.lineText ↔ ∃ s, c.lineText = .ok s := by
  cases c with
  | text s => exact iff_of_true (within_ok _) ⟨_, rfl⟩
  | bytes bs =>
    refine iff_of_false (fun h => ?_) fun ⟨s, hs⟩ => by cases hs
    obtain ⟨m, hm⟩ := h _ rfl
    cases hm

lemma decides_ownersVerdict_iff : Within Refusal (ownersVerdict site t p) ↔ OwnersJudgeable site t p := by
  unfold ownersVerdict OwnersJudgeable
  by_cases hfile : t.isFile (site.home.join p).names
  · obtain ⟨c, hc⟩ := isFile_iff_read.mp hfile
    rw [if_pos hfile, hc, except_ok_bind]
    simp only [Except.ok.injEq, forall_eq']
    by_cases happrover : namesApprover (readableLines c)
    · rw [if_pos happrover]
      exact iff_of_true (within_ok ()) (.inl happrover)
    · rw [if_neg happrover, within_bind_iff_left fun _ => decides_refuse _, decides_lineText_iff,
        or_iff_right happrover]
  · rw [if_neg hfile]
    exact iff_of_true (decides_refuse _) fun c hc => absurd (isFile_iff_read.mpr ⟨c, hc⟩) hfile

lemma noExit_ownersVerdict (site : Site) (t : Tree) (p : Path) : Within NoExit (ownersVerdict site t p) := by
  have hline (c : Content) : Within NoExit c.lineText := by cases c <;> simp [Content.lineText]
  unfold ownersVerdict
  by_cases hfile : t.isFile (site.home.join p).names
  · obtain ⟨c, hc⟩ := isFile_iff_read.mp hfile
    rw [if_pos hfile, hc, except_ok_bind]
    simp [hline]
  · rw [if_neg hfile]
    exact noExit_refuse _

/-! ## The metadata of a folder -/

/-- The whole days between a stamp and now, whichever comes first. -/
def stampAge (now m : Moment) : ℕ := (daysBetween m.instant now.instant).natAbs

def stampVerdict (now : Moment) : Value → Except Fault Bool
  | .moment m =>
    if m.offset.isNone then throw (.wrongKind "can't subtract offset-naive and offset-aware datetimes")
    else pure (stampAge now m < 365)
  | v => do
    let _ ← v.plainText
    pure false

lemma checkVerified_logs (v : Value) (site : Site) (w : World) :
    Logs site w (checkVerified v) (stampVerdict site.now v) := by
  cases v with
  | moment m =>
    unfold checkVerified stampVerdict
    dsimp only
    cases m.offset.isNone with
    | true => exact .of_eq rfl
    | false =>
      apply Logs.after (Run.read_apply site w)
      by_cases hold : (daysBetween m.instant site.now.instant).natAbs ≥ 365
      · rw [if_pos hold, stampAge, decide_eq_false (by omega)]
        exact ⟨_, rfl⟩
      · rw [if_neg hold, stampAge, decide_eq_true (by omega)]
        exact .of_eq rfl
  | _ => exact .bind .ofExcept fun _ _ _ => ⟨_, rfl⟩

/-- How the check of what metadata say ends; `place` is where they stand. -/
def valueVerdict (now : Moment) (place : String) (v : Value) : Except Fault Unit := do
  if !(← v.mentions "lastVerified") then
    refuse s!"Metadata at {place} has corresponding metadata.yaml with no 'lastVerified' value."
  else
    let stamp ← v.getOrNull "lastVerified"
    if !(← stampVerdict now stamp) then
      refuse (s!"Metadata at {place} has corresponding metadata.yaml with invalid " ++
        s!"'lastVerified' value: {stamp.plain}.")
    else checkSchema v

def fileVerdict (site : Site) (t : Tree) (p : Path) : Except Fault Unit :=
  if t.isFile (site.home.join p).names then valueAt site t p >>= valueVerdict site.now p.text
  else refuse s!"{p.text} is not a valid filepath."

lemma checkFile_logs (p : Path) (site : Site) (w : World) :
    Logs site w (checkFile p) (fileVerdict site w.tree p) := by
  apply Logs.after (isFile_apply p site w)
  unfold fileVerdict
  cases w.tree.isFile (site.home.join p).names with
  | false => exact .of_eq rfl
  | true =>
    refine Logs.bind (.of_eq (loadYaml_apply p site w)) fun v es _ => .bind .ofExcept fun there fs _ => ?_
    cases there with
    | false => exact .of_eq rfl
    | true =>
      refine .bind .ofExcept fun stamp gs _ => (checkVerified_logs stamp site _).bind fun recent hs _ => ?_
      cases recent with
      | false => exact .of_eq rfl
      | true => exact .ofExcept

/-- Values of metadata that the check takes or refuses. -/
inductive Judgeable (now : Moment) : Value → Prop
  /-- The stamp is looked for, and it is not there. -/
  | unstamped {v : Value} (hnone : v.mentions "lastVerified" = .ok false) : Judgeable now v
  /-- The stamp is no moment, and it can be shown. -/
  | mistyped {es : List (Value × Value)} {stamp : Value}
      (hstamp : Value.named "lastVerified" es = some stamp) (hkind : ∀ m, stamp ≠ .moment m)
      (hshown : stamp.isWritable = true) : Judgeable now (.map es)
  /-- The stamp is a moment with an offset, a year or more away. -/
  | distant {es : List (Value × Value)} {m : Moment}
      (hstamp : Value.named "lastVerified" es = some (.moment m)) (hoffset : m.offset.isSome = true)
      (hage : 365 ≤ stampAge now m) : Judgeable now (.map es)
  /-- The stamp is a moment with an offset within a year, and the schema can judge the rest. -/
  | recent {es : List (Value × Value)} {m : Moment}
      (hstamp : Value.named "lastVerified" es = some (.moment m)) (hoffset : m.offset.isSome = true)
      (hage : stampAge now m < 365) (hschema : SchemaJudgeable es) : Judgeable now (.map es)

def MetadataPass (site : Site) (t : Tree) (p : Path) : Prop :=
  ∃ es m, valueAt site t p = .ok (.map es) ∧ Value.named "lastVerified" es = some (.moment m) ∧
    m.offset.isSome = true ∧ stampAge site.now m < 365 ∧ IsValid es

/-- Metadata that the check takes or refuses: if there is a file, then it can be read, and what it says
can be judged. -/
def MetadataJudgeable (site : Site) (t : Tree) (p : Path) : Prop :=
  t.isFile (site.home.join p).names = true → ∃ v, valueAt site t p = .ok v ∧ Judgeable site.now v

lemma stampVerdict_eq_ok_true : stampVerdict now v = .ok true ↔
    ∃ m, v = .moment m ∧ m.offset.isSome ∧ stampAge now m < 365 := by
  cases v with
  | moment m =>
    simp only [stampVerdict, Value.moment.injEq, exists_eq_left']
    cases m.offset with
    | none => simp
    | some o => simp
  | _ =>
    refine iff_of_false (fun h => ?_) (by simp)
    obtain ⟨_, -, h⟩ := except_bind_eq_ok.mp h
    cases h

lemma decides_stampVerdict_iff : Within Refusal (stampVerdict now v) ↔
    v.isWritable ∧ ∀ m, v = .moment m → m.offset.isSome := by
  cases v with
  | moment m =>
    simp only [stampVerdict, Value.moment.injEq, forall_eq']
    cases m.offset with
    | none =>
      refine iff_of_false (fun h => ?_) (by simp)
      obtain ⟨m, hm⟩ := h _ rfl
      cases hm
    | some o => exact iff_of_true (within_ok _) ⟨rfl, rfl⟩
  | _ =>
    simp only [stampVerdict, reduceCtorEq, false_implies, implies_true, and_true]
    exact (within_bind_iff_left fun _ => within_pure _).trans Value.decides_plainText_iff

lemma noExit_stampVerdict (now : Moment) (v : Value) : Within NoExit (stampVerdict now v) := by
  cases v <;> simp [stampVerdict]

lemma noExit_valueVerdict (now : Moment) (place : String) (v : Value) :
    Within NoExit (valueVerdict now place v) := by
  simp [valueVerdict, noExit_stampVerdict, noExit_checkSchema]

lemma valueVerdict_of_stamp {es : List (Value × Value)} {stamp : Value}
    (h : Value.named "lastVerified" es = some stamp) (place : String) :
    valueVerdict now place (.map es) = stampVerdict now stamp >>= fun recent =>
      if !recent then
        refuse (s!"Metadata at {place} has corresponding metadata.yaml with invalid " ++
          s!"'lastVerified' value: {stamp.plain}.")
      else checkSchema (.map es) := by
  have hthere : Value.mentions "lastVerified" (.map es) = .ok true := by
    rw [Value.mentions, h]
    rfl
  rw [valueVerdict, hthere, Value.getOrNull_map, h]
  rfl

lemma exists_stamp_of_mentions {es : List (Value × Value)}
    (h : Value.mentions "lastVerified" (.map es) = .ok true) :
    ∃ stamp, Value.named "lastVerified" es = some stamp :=
  Option.isSome_iff_exists.mp (Except.ok.inj h)

lemma valueVerdict_eq_ok {place : String} :
    valueVerdict now place v = .ok () ↔ ∃ es m, v = .map es ∧
      Value.named "lastVerified" es = some (.moment m) ∧ m.offset.isSome ∧
      stampAge now m < 365 ∧ IsValid es := by
  constructor
  · intro h
    obtain ⟨there, hthere, hrest⟩ := except_bind_eq_ok.mp h
    cases there with
    | false => cases hrest
    | true =>
      obtain ⟨stamp, hstamp, -⟩ := except_bind_eq_ok.mp hrest
      obtain ⟨es, rfl, -⟩ := Value.getOrNull_eq_ok.mp hstamp
      obtain ⟨stamp, hstamp⟩ := exists_stamp_of_mentions hthere
      rw [valueVerdict_of_stamp hstamp] at h
      obtain ⟨recent, hrecent, h⟩ := except_bind_eq_ok.mp h
      cases recent with
      | false => cases h
      | true =>
        obtain ⟨m, rfl, hoffset, hage⟩ := stampVerdict_eq_ok_true.mp hrecent
        exact ⟨es, m, rfl, hstamp, hoffset, hage, isValid_of_checkSchema h⟩
  · rintro ⟨es, m, rfl, hstamp, hoffset, hage, hvalid⟩
    rw [valueVerdict_of_stamp hstamp, stampVerdict_eq_ok_true.mpr ⟨m, rfl, hoffset, hage⟩]
    exact checkSchema_of_isValid hvalid

lemma judgeable_of_decides {place : String} (h : Within Refusal (valueVerdict now place v)) :
    Judgeable now v := by
  obtain ⟨hmentions, hrest⟩ := within_bind_iff.mp h
  obtain ⟨there, hthere⟩ := Value.exists_mentions (Value.decides_mentions_iff.mp hmentions) "lastVerified"
  cases there with
  | false => exact .unstamped hthere
  | true =>
    have hget := (within_bind_iff.mp (hrest true hthere)).1
    obtain ⟨es, rfl⟩ := isMap_iff.mp (decides_getOrNull_iff.mp hget)
    obtain ⟨stamp, hstamp⟩ := exists_stamp_of_mentions hthere
    rw [valueVerdict_of_stamp hstamp, within_bind_iff, decides_stampVerdict_iff] at h
    obtain ⟨⟨hshown, hoffset⟩, hschema⟩ := h
    by_cases hkind : ∃ m, stamp = .moment m
    · obtain ⟨m, rfl⟩ := hkind
      rcases Nat.lt_or_ge (stampAge now m) 365 with hage | hage
      · have hrecent := stampVerdict_eq_ok_true.mpr ⟨m, rfl, hoffset m rfl, hage⟩
        exact .recent hstamp (hoffset m rfl) hage (decides_checkSchema_map_iff.mp (hschema true hrecent))
      · exact .distant hstamp (hoffset m rfl) hage
    · exact .mistyped hstamp (not_exists.mp hkind) hshown

lemma decides_of_judgeable (h : Judgeable now v) (place : String) :
    Within Refusal (valueVerdict now place v) := by
  cases h with
  | unstamped hnone =>
    rw [valueVerdict, hnone]
    exact decides_refuse _
  | mistyped hstamp hkind hshown =>
    rw [valueVerdict_of_stamp hstamp, within_bind_iff, decides_stampVerdict_iff]
    refine ⟨⟨hshown, fun m hm => absurd hm (hkind m)⟩, fun recent hrecent => ?_⟩
    cases recent with
    | false => exact decides_refuse _
    | true =>
      obtain ⟨m, hm, -⟩ := stampVerdict_eq_ok_true.mp hrecent
      exact absurd hm (hkind m)
  | distant hstamp hoffset hage =>
    rw [valueVerdict_of_stamp hstamp, within_bind_iff, decides_stampVerdict_iff]
    refine ⟨⟨rfl, fun m hm => by cases hm; exact hoffset⟩, fun recent hrecent => ?_⟩
    cases recent with
    | false => exact decides_refuse _
    | true =>
      obtain ⟨m, hm, -, hage'⟩ := stampVerdict_eq_ok_true.mp hrecent
      cases hm
      omega
  | recent hstamp hoffset hage hschema =>
    rw [valueVerdict_of_stamp hstamp, stampVerdict_eq_ok_true.mpr ⟨_, rfl, hoffset, hage⟩]
    exact decides_checkSchema_map_iff.mpr hschema

lemma isFile_of_valueAt (h : valueAt site t p = .ok v) : t.isFile (site.home.join p).names := by
  obtain ⟨c, hc, -⟩ := except_bind_eq_ok.mp h
  exact isFile_iff_read.mpr ⟨c, hc⟩

lemma fileVerdict_eq_ok : fileVerdict site t p = .ok () ↔ MetadataPass site t p := by
  unfold fileVerdict MetadataPass
  by_cases hfile : t.isFile (site.home.join p).names
  · rw [if_pos hfile, except_bind_eq_ok]
    simp only [valueVerdict_eq_ok]
    constructor
    · rintro ⟨_, hvalue, es, m, rfl, h⟩
      exact ⟨es, m, hvalue, h⟩
    · rintro ⟨es, m, hvalue, h⟩
      exact ⟨_, hvalue, es, m, rfl, h⟩
  · rw [if_neg hfile]
    exact iff_of_false refuse_ne_ok fun ⟨es, m, hvalue, _⟩ => hfile (isFile_of_valueAt hvalue)

lemma decides_of_metadataJudgeable (h : MetadataJudgeable site t p) :
    Within Refusal (fileVerdict site t p) := by
  unfold fileVerdict
  split
  · next hfile =>
    obtain ⟨v, hvalue, hv⟩ := h hfile
    rw [hvalue]
    exact decides_of_judgeable hv p.text
  · exact decides_refuse _

def MetadataReads (site : Site) (t : Tree) (p : Path) : Prop :=
  t.isFile (site.home.join p).names = true → ∃ v, valueAt site t p = .ok v

lemma MetadataReads.judgeable_of_decides (hreads : MetadataReads site t p)
    (h : Within Refusal (fileVerdict site t p)) : MetadataJudgeable site t p := by
  intro hfile
  obtain ⟨v, hvalue⟩ := hreads hfile
  rw [fileVerdict, if_pos hfile, hvalue] at h
  exact ⟨v, hvalue, Metadata.judgeable_of_decides h⟩

lemma MetadataReads.noExit (hreads : MetadataReads site t p) : Within NoExit (fileVerdict site t p) := by
  unfold fileVerdict
  split
  · next hfile =>
    obtain ⟨v, hvalue⟩ := hreads hfile
    rw [hvalue]
    exact noExit_valueVerdict _ _ v
  · exact noExit_refuse _

/-! ## One folder -/

lemma reported_of_decides {check : Run Unit} {verdict : Except Fault Unit}
    (hcheck : Logs site w check verdict) (h : Within Refusal verdict) :
    ∃ passed, (passed = true ↔ verdict = .ok ()) ∧ Logs site w (reported check) (.ok passed) := by
  obtain ⟨es, hes⟩ := hcheck.attempt
  rcases verdict with e | _
  · obtain ⟨m, rfl⟩ := h e rfl
    refine ⟨false, by simp, es ++ [⟨.error, s!"Validation Error: {m}"⟩], ?_⟩
    rw [reported, bind_of_eq hes, ← World.logged_logged]
    rfl
  · refine ⟨true, by simp, es, ?_⟩
    rw [reported, bind_of_eq hes]
    rfl

lemma reported_of_not_decides {check : Run Unit} {verdict : Except Fault Unit}
    (hcheck : Logs site w check verdict) (h : ¬ Within Refusal verdict) :
    ∃ e, verdict = .error e ∧ (∀ m, e ≠ .schema m) ∧ Logs site w (reported check) (.error e) := by
  obtain ⟨es, hes⟩ := hcheck.attempt
  rcases verdict with e | _
  · have hnot : ∀ m, e ≠ .schema m := fun m hm => h (within_throw_iff.mpr ⟨m, hm⟩)
    refine ⟨e, rfl, hnot, es, ?_⟩
    rw [reported, bind_of_eq hes]
    cases e with
    | schema m => exact absurd rfl (hnot m)
    | _ => rfl
  · exact absurd (within_ok ()) h

/-- A folder whose owners and metadata the checks take or refuse. -/
structure FolderJudgeable (site : Site) (t : Tree) (q : Path) : Prop where
  owners : OwnersJudgeable site t (q.below ownersName)
  metadata : MetadataJudgeable site t (q.below fileName)

/-- A folder whose owners and metadata are taken. -/
structure FolderPasses (site : Site) (t : Tree) (q : Path) : Prop where
  owners : OwnersPass site t (q.below ownersName)
  metadata : MetadataPass site t (q.below fileName)

lemma OwnersPass.judgeable (h : OwnersPass site t p) : OwnersJudgeable site t p := by
  rw [← decides_ownersVerdict_iff, ownersVerdict_eq_ok.mpr h]
  exact within_ok ()

lemma FolderPasses.judgeable (h : FolderPasses site t q) : FolderJudgeable site t q := by
  refine ⟨h.owners.judgeable, fun _ => ?_⟩
  obtain ⟨es, m, hvalue, hstamp, hoffset, hage, hvalid⟩ := h.metadata
  have hschema : SchemaJudgeable es := by
    rw [← decides_checkSchema_map_iff, checkSchema_of_isValid hvalid]
    exact within_ok ()
  exact ⟨_, hvalue, .recent hstamp hoffset hage hschema⟩

def announcement (q : Path) : String := s!"Validating {q.text}..."

def report (q : Path) (passed : Bool) : List String :=
  announcement q :: if passed then [s!"Validation successful for {q.text}."] else []

lemma print_announcement (q : Path) (site : Site) (w : World) :
    Run.print s!"Validating {q.text}..." site w = (.ok (), w.printed [announcement q]) :=
  Run.print_apply site w _

lemma validateFolder_of_judgeable (h : FolderJudgeable site w.tree q) :
    ∃ passed es, (passed = true ↔ FolderPasses site w.tree q) ∧
      validateFolder q site w = (.ok passed, (w.printed (report q passed)).logged es) := by
  obtain ⟨owners, howners, es, hes⟩ := reported_of_decides
    (checkOwners_logs (q.below ownersName) site (w.printed [announcement q]))
    (decides_ownersVerdict_iff.mpr h.owners)
  obtain ⟨metadata, hmetadata, fs, hfs⟩ := reported_of_decides
    (checkFile_logs (q.below fileName) site ((w.printed [announcement q]).logged es))
    (decides_of_metadataJudgeable h.metadata)
  have hpasses : (owners && metadata) ↔ FolderPasses site w.tree q := by
    rw [Bool.and_eq_true, howners, hmetadata]
    exact (and_congr ownersVerdict_eq_ok fileVerdict_eq_ok).trans
      ⟨fun h => ⟨h.1, h.2⟩, fun h => ⟨h.owners, h.metadata⟩⟩
  rw [validateFolder, bind_of_eq (print_announcement q site w), bind_of_eq hes,
    bind_of_eq hfs, World.logged_logged]
  rw [← hpasses]
  cases owners && metadata with
  | false => exact ⟨false, es ++ fs, Iff.rfl, rfl⟩
  | true =>
    obtain ⟨gs, hgs⟩ : Logs site ((w.printed [announcement q]).logged (es ++ fs))
        (Run.log .info s!"Validation successful for {q.text}.") (.ok ()) := .log
    refine ⟨true, es ++ fs ++ gs, Iff.rfl, ?_⟩
    rw [if_pos rfl, bind_of_eq hgs, bind_of_eq (Run.print_apply site _ _), World.logged_logged,
      World.logged_printed, World.printed_printed]
    rfl

lemma validateFolder_of_not_judgeable (h : ¬ FolderJudgeable site w.tree q)
    (hreads : MetadataReads site w.tree (q.below fileName)) :
    ∃ e es, (∀ m, e ≠ .schema m) ∧ (∀ k, e ≠ .exit k) ∧
      validateFolder q site w = (.error e, (w.printed [announcement q]).logged es) := by
  rw [validateFolder, bind_of_eq (print_announcement q site w)]
  have hcheck := checkOwners_logs (q.below ownersName) site (w.printed [announcement q])
  by_cases howners : OwnersJudgeable site w.tree (q.below ownersName)
  · obtain ⟨owners, -, es, hes⟩ := reported_of_decides hcheck (decides_ownersVerdict_iff.mpr howners)
    have hmetadata : ¬ Within Refusal (fileVerdict site w.tree (q.below fileName)) :=
      fun hdecides => h ⟨howners, hreads.judgeable_of_decides hdecides⟩
    obtain ⟨e, he, hschema, fs, hfs⟩ := reported_of_not_decides
      (checkFile_logs (q.below fileName) site ((w.printed [announcement q]).logged es)) hmetadata
    refine ⟨e, es ++ fs, hschema, hreads.noExit e he, ?_⟩
    rw [bind_of_eq hes, bind_apply, hfs, World.logged_logged]
  · obtain ⟨e, he, hschema, es, hes⟩ := reported_of_not_decides hcheck
      (mt decides_ownersVerdict_iff.mp howners)
    refine ⟨e, es, hschema, noExit_ownersVerdict site w.tree _ e he, ?_⟩
    rw [bind_apply, hes]

/-! ## All folders -/

def Answers (site : Site) (t : Tree) : List Path → List Bool → Prop :=
  List.Forall₂ fun q passed => passed = true ↔ FolderPasses site t q

def reports (folders : List Path) (results : List Bool) : List String :=
  (List.zipWith report folders results).flatten

lemma mapM_validateFolder_of_judgeable {folders : List Path} {w : World}
    (h : ∀ q ∈ folders, FolderJudgeable site w.tree q) :
    ∃ results es, Answers site w.tree folders results ∧
      folders.mapM validateFolder site w =
        (.ok results, (w.printed (reports folders results)).logged es) := by
  induction folders generalizing w with
  | nil => exact ⟨[], [], .nil, by simp [reports]⟩
  | cons q folders ih =>
    obtain ⟨hq, hfolders⟩ := forall_mem_cons.mp h
    obtain ⟨passed, es, hpassed, hes⟩ := validateFolder_of_judgeable hq
    obtain ⟨results, fs, hresults, hfs⟩ := ih (w := (w.printed (report q passed)).logged es) hfolders
    refine ⟨passed :: results, es ++ fs, .cons hpassed hresults, ?_⟩
    -- what was logged and what was printed do not meet, so each is joined on its own
    rw [mapM_cons, bind_of_eq hes, bind_of_eq hfs, World.logged_printed,
      World.printed_printed, World.logged_logged]
    rfl

/-- The first folder that cannot be judged ends the run; those behind it are not announced. -/
lemma mapM_validateFolder_of_not_judgeable {before : List Path} (after : List Path)
    (hbefore : ∀ x ∈ before, FolderJudgeable site w.tree x) (hq : ¬ FolderJudgeable site w.tree q)
    (hreads : MetadataReads site w.tree (q.below fileName)) :
    ∃ e results es, Answers site w.tree before results ∧ (∀ m, e ≠ .schema m) ∧ (∀ k, e ≠ .exit k) ∧
      (before ++ q :: after).mapM validateFolder site w =
        (.error e, (w.printed (reports before results ++ [announcement q])).logged es) := by
  obtain ⟨results, es, hresults, hes⟩ := mapM_validateFolder_of_judgeable hbefore
  obtain ⟨e, fs, hschema, hexit, hfs⟩ := validateFolder_of_not_judgeable
    (w := (w.printed (reports before results)).logged es) hq hreads
  refine ⟨e, results, es ++ fs, hresults, hschema, hexit, ?_⟩
  rw [mapM_append, bind_of_eq hes, bind_apply, mapM_cons, bind_apply, hfs,
    World.logged_printed, World.printed_printed, World.logged_logged]

def foldersIn (site : Site) (t : Tree) (p : Path) : List Path :=
  (itemsIn site t p).filter fun q =>
    t.isFolder (site.home.join q).names && t.exists? (site.home.join (q.below fileName)).names

/-- A folder without metadata of its own, in which there are folders with metadata. -/
structure IsSubcategory (site : Site) (t : Tree) (p : Path) : Prop where
  folder : t.isFolder (site.home.join p).names = true
  unmarked : t.exists? (site.home.join (p.below fileName)).names = false
  inhabited : foldersIn site t p ≠ []

lemma IsSubcategory.foldersToValidate_apply (h : IsSubcategory site w.tree p) :
    foldersToValidate p site w = (.ok (foldersIn site w.tree p), w) := by
  have hitem (q : Path) : (do
      if ← Run.isFolder q then Run.exists? (q.below fileName) else pure false : Run Bool) site w =
      (.ok (w.tree.isFolder (site.home.join q).names &&
        w.tree.exists? (site.home.join (q.below fileName)).names), w) := by
    rw [bind_apply, Run.isFolder_apply]
    cases w.tree.isFolder (site.home.join q).names with
    | false => rfl
    | true => exact Run.exists?_apply _ site w
  have hsome : (foldersIn site w.tree p).isEmpty = false := by
    simpa using h.inhabited
  rw [foldersToValidate, bind_of_eq (Run.exists?_apply _ site w), h.unmarked,
    if_neg Bool.false_ne_true, bind_of_eq (folderItems_apply h.folder),
    bind_of_eq (Run.filterM_apply hitem _)]
  rw [foldersIn] at hsome ⊢
  rw [hsome]
  rfl

lemma validateSubcategory_of_judgeable (h : OwnersJudgeable site w.tree (p.below ownersName)) :
    ∃ own, (own = true ↔ OwnersPass site w.tree (p.below ownersName)) ∧
      Logs site w (validateSubcategory p) (.ok own) := by
  by_cases hfile : w.tree.isFile (site.home.join (p.below ownersName)).names
  · obtain ⟨own, hown, hlogs⟩ :=
      reported_of_decides (checkOwners_logs _ site w) (decides_ownersVerdict_iff.mpr h)
    refine ⟨own, hown.trans ownersVerdict_eq_ok, .after (isFile_apply _ site w) ?_⟩
    rwa [if_pos hfile]
  · refine ⟨false, iff_of_false Bool.false_ne_true ?_, .after (isFile_apply _ site w) ?_⟩
    · exact fun ⟨c, hc, _⟩ => hfile (isFile_iff_read.mpr ⟨c, hc⟩)
    · rw [if_neg hfile]
      exact ⟨_, rfl⟩

lemma checkFolder_unchanged (raw : String) (site : Site) (w : World) :
    (checkFolder raw site w).2 = w := by
  rw [checkFolder, bind_of_eq (Run.exists?_apply _ site w)]
  split
  · rfl
  · dsimp only
    rw [bind_of_eq (Run.isFolder_apply _ site w)]
    split <;> rfl

lemma folderComplaint_unchanged (word : String) (site : Site) (w : World) :
    (folderComplaint word site w).2 = w := by
  rw [folderComplaint, bind_apply, attempt_apply, checkFolder_unchanged]
  rcases (checkFolder word site w).1 with e | _
  · cases e <;> rfl
  · rfl

lemma read_validateArguments {words : List String} {args : Arguments}
    (h : (CommandLine.read validateArguments words [] site w).1 = .ok args) :
    CommandLine.read validateArguments words [] site w = (.ok args, w) := by
  have hkeeps : ∀ a ∈ validateArguments, CommandLine.Keeps (· = w) a := by
    intro a ha word site v hv
    obtain rfl := mem_singleton.mp ha
    exact ⟨(folderComplaint_unchanged word site v).trans hv, fun _ _ => trivial⟩
  obtain ⟨hworld, _⟩ := CommandLine.read_ensures words hkeeps (forall_mem_nil _) site w rfl
  exact Prod.ext h hworld

/-- In a subcategory whose own owners can be judged the command comes to the folders, and what is left
is to put their answers together. -/
lemma IsSubcategory.validateAll_apply (h : IsSubcategory site w.tree p)
    (howners : OwnersJudgeable site w.tree (p.below ownersName)) :
    ∃ own es, (own = true ↔ OwnersPass site w.tree (p.below ownersName)) ∧
      validateAll p site w = (do
        let results ← (foldersIn site w.tree p).mapM validateFolder
        if !(own && results.all id) then throw (.exit 1) : Run Unit) site (w.logged es) := by
  obtain ⟨own, hown, es, hes⟩ := validateSubcategory_of_judgeable howners
  refine ⟨own, es, hown, ?_⟩
  rw [validateAll, bind_apply, attempt_apply, h.foldersToValidate_apply]
  dsimp only
  rw [bind_of_eq (Run.exists?_apply _ site w), h.unmarked, if_neg Bool.false_ne_true,
    bind_of_eq hes]

def twoComponents (loader parser : String) : Tree where
  files :=
    [ (["components", "data", "OWNERS"], .text "approvers:\n  - ann\n"),
      (["components", "data", "loader", "metadata.yaml"], .text loader),
      (["components", "data", "loader", "OWNERS"], .text "approvers:\n  - ann\n"),
      (["components", "data", "parser", "metadata.yaml"], .text parser),
      (["components", "data", "parser", "OWNERS"], .text "approvers:\n  - ann\n")]
  folders := [[], ["components"], ["components", "data"], ["components", "data", "loader"],
    ["components", "data", "parser"]]

def dataFolder : Path := ⟨"", ["components", "data"]⟩

def loaderFolder : Path := ⟨"", ["components", "data", "loader"]⟩

def parserFolder : Path := ⟨"", ["components", "data", "parser"]⟩

def firstDay : Site := { Run.rootSite with now := { date := ⟨2026, 1, 1⟩, offset := some 0 } }

lemma foldersIn_twoComponents (loader parser : String) :
    foldersIn firstDay (twoComponents loader parser) dataFolder = [loaderFolder, parserFolder] := by
  cbv

def keptTree : Tree :=
  twoComponents ("name: loader\nstability: beta\ndependencies:\n  kubeflow:\n" ++
    "    - name: Pipelines\n      version: '>=2.5.0'\nlastVerified: 2025-11-18T00:00:00Z\n")
    "name: parser\n"

lemma folderPasses_first : FolderPasses firstDay keptTree loaderFolder :=
  ⟨ownersVerdict_eq_ok.mp (by decide +kernel), fileVerdict_eq_ok.mp (by decide +kernel)⟩

lemma not_folderPasses_second : ¬ FolderPasses firstDay keptTree parserFolder := by
  intro h
  have hrefused : fileVerdict firstDay keptTree (parserFolder.below fileName) ≠ .ok () := by
    decide +kernel
  exact hrefused (fileVerdict_eq_ok.mpr h.metadata)

lemma folderJudgeable_second : FolderJudgeable firstDay keptTree parserFolder := by
  have howners : OwnersPass firstDay keptTree (parserFolder.below ownersName) :=
    ownersVerdict_eq_ok.mp (by decide +kernel)
  have hnone : (valueAt firstDay keptTree (parserFolder.below fileName) >>=
      Value.mentions "lastVerified") = .ok false := by decide +kernel
  obtain ⟨v, hvalue, hnone⟩ := except_bind_eq_ok.mp hnone
  exact ⟨howners.judgeable, fun _ => ⟨v, hvalue, .unstamped hnone⟩⟩

/-- Validating a subcategory whose own owners can be judged, with metadata that can be read. If each
folder can be judged, then all are announced in turn, each gets an answer, and the command ends with
status zero or one. Otherwise the first folder that cannot be judged ends it with a fault that is no
exit, and those behind it are not announced. -/
theorem validateCommand_in_turn {words : List String} {args : Arguments} {site : Site} {w : World}
    {p : Path} (hargs : (CommandLine.read validateArguments words [] site w).1 = .ok args)
    (hp : Path.ofText (args.textOf "--dir" "") = p) (hsubcategory : IsSubcategory site w.tree p)
    (howners : OwnersJudgeable site w.tree (p.below ownersName)) :
    ((∀ q ∈ foldersIn site w.tree p, FolderJudgeable site w.tree q) →
      ∃ own results es, (own = true ↔ OwnersPass site w.tree (p.below ownersName)) ∧
        Answers site w.tree (foldersIn site w.tree p) results ∧
        validateCommand words site w =
          (if own && results.all id then .ok () else .error (.exit 1),
            (w.printed (reports (foldersIn site w.tree p) results)).logged es)) ∧
    ∀ before q after, foldersIn site w.tree p = before ++ q :: after →
      (∀ x ∈ before, FolderJudgeable site w.tree x) → ¬ FolderJudgeable site w.tree q →
      MetadataReads site w.tree (q.below fileName) →
      ∃ e results es, (∀ m, e ≠ .schema m) ∧ (∀ k, e ≠ .exit k) ∧
        Answers site w.tree before results ∧
        validateCommand words site w =
          (.error e, (w.printed (reports before results ++ [announcement q])).logged es) := by
  obtain ⟨own, es, hown, hall⟩ := hsubcategory.validateAll_apply howners
  have hcommand : validateCommand words site w = validateAll p site w := by
    rw [validateCommand, bind_of_eq (read_validateArguments hargs), hp]
  rw [hcommand, hall]
  constructor
  · intro hjudgeable
    obtain ⟨results, fs, hresults, hfs⟩ := mapM_validateFolder_of_judgeable (w := w.logged es) hjudgeable
    refine ⟨own, results, es ++ fs, hown, hresults, ?_⟩
    rw [bind_of_eq hfs, World.logged_printed, World.logged_logged]
    cases own && results.all id <;> rfl
  · intro before q after hfolders hbefore hq hreads
    obtain ⟨e, results, fs, hresults, hschema, hexit, hfs⟩ :=
      mapM_validateFolder_of_not_judgeable (w := w.logged es) after hbefore hq hreads
    refine ⟨e, results, es ++ fs, hschema, hexit, hresults, ?_⟩
    rw [hfolders, bind_apply, hfs, World.logged_printed, World.logged_logged]

theorem validateCommand_in_turn_kept : IsSubcategory firstDay keptTree dataFolder ∧
    ∃ es, validateCommand ["--dir", "components/data"] firstDay { tree := keptTree } =
      (.error (.exit 1), (World.printed { tree := keptTree }
        ["Validating components/data/loader...", "Validation successful for components/data/loader.",
          "Validating components/data/parser..."]).logged es) := by
  have hfolders : foldersIn firstDay keptTree dataFolder = [loaderFolder, parserFolder] :=
    foldersIn_twoComponents _ _
  have hsubcategory : IsSubcategory firstDay keptTree dataFolder :=
    ⟨by decide +kernel, by decide +kernel, by rw [hfolders]; simp⟩
  have howners : OwnersPass firstDay keptTree (dataFolder.below ownersName) :=
    ownersVerdict_eq_ok.mp (by decide +kernel)
  obtain ⟨hall, -⟩ := @validateCommand_in_turn ["--dir", "components/data"]
    ⟨[("--dir", ["components/data"])]⟩ firstDay { tree := keptTree } dataFolder rfl rfl hsubcategory
    howners.judgeable
  rw [hfolders] at hall
  obtain ⟨own, results, es, -, hresults, hcommand⟩ :=
    hall (by simp [folderPasses_first.judgeable, folderJudgeable_second])
  obtain ⟨loader, rest, hloader, hrest, rfl⟩ := forall₂_cons_left_iff.mp hresults
  obtain ⟨parser, none, hparser, hnone, rfl⟩ := forall₂_cons_left_iff.mp hrest
  obtain rfl := forall₂_nil_left_iff.mp hnone
  obtain rfl : loader = true := hloader.mpr folderPasses_first
  obtain rfl : parser = false := Bool.eq_false_iff.mpr (mt hparser.mp not_folderPasses_second)
  refine ⟨hsubcategory, es, hcommand.trans ?_⟩
  have hlines : reports [loaderFolder, parserFolder] [true, false] =
      ["Validating components/data/loader...", "Validation successful for components/data/loader.",
        "Validating components/data/parser..."] := by decide +kernel
  rw [hlines]
  cases own <;> rfl

/-- Metadata without any content keep the next folder from being validated. -/
theorem validateCommand_of_empty_metadata :
    foldersIn firstDay (twoComponents "" "name: parser\n") dataFolder = [loaderFolder, parserFolder] ∧
    Prod.map id World.output (validateCommand ["--dir", "components/data"] firstDay
      { tree := twoComponents "" "name: parser\n" }) =
      (.error .wrongKind, "Validating components/data/loader...\n") := by
  refine ⟨foldersIn_twoComponents _ _, ?_⟩
  cbv

/-! ## Owners and stamps on their own -/

section Parts

open Text

lemma namesApprover_iff {ls : List String} : namesApprover ls ↔ ∃ line next, [line, next] <:+: ls ∧
    startsWith line "approvers:" ∧ startsWith (trim next) "-" ∧ 2 < (trim next).length := by
  induction ls with
  | nil => simp [namesApprover]
  | cons line ls ih =>
    cases ls with
    | nil => simp [namesApprover, infix_cons_iff, cons_prefix_cons]
    | cons next rest =>
      simp only [namesApprover, Bool.or_eq_true, ih, infix_cons_iff (a := line), cons_prefix_cons, nil_prefix,
        and_true, or_and_right, exists_or, exists_and_left, and_assoc, exists_eq_left, Bool.and_eq_true,
        decide_eq_true_eq]

example : (checkOwners ⟨"", [ownersName]⟩ Run.rootSite {}).1 ≠ .ok () := by decide +kernel

/-- A document that lists names as approvers. -/
def listsApprovers : Value → Bool
  | .map es =>
    match Value.named "approvers" es with
    | some (.list (v :: vs)) => (v :: vs).all fun | .text name => name ≠ "" | _ => false
    | _ => false
  | _ => false

def owned (text : String) : World := { tree := { files := [(["OWNERS"], .text text)] } }

end Parts

/-- Days are counted down, so a stamp that lies ahead counts as one day more: it has to lie within 364
days, and one that has passed within 365. -/
theorem checkVerified_iff {m : Moment} (hoffset : m.offset.isSome) (site : Site) (w : World) :
    ∃ verified es, checkVerified (.moment m) site w = (.ok verified, w.logged es) ∧
      (verified = true ↔ -364 * Moment.dayLength ≤ site.now.instant - m.instant ∧
        site.now.instant - m.instant < 365 * Moment.dayLength) ∧
      ((verified = true ↔ |site.now.instant - m.instant| < 365 * Moment.dayLength) ↔
        ¬(364 * Moment.dayLength < m.instant - site.now.instant ∧
          m.instant - site.now.instant < 365 * Moment.dayLength)) := by
  obtain ⟨es, hes⟩ := checkVerified_logs (.moment m) site w
  have hday : Moment.dayLength = 86400000000 := rfl
  have hnone : m.offset.isNone = false := by simpa using hoffset
  have hage : stampAge site.now m < 365 ↔ -364 * Moment.dayLength ≤ site.now.instant - m.instant ∧
      site.now.instant - m.instant < 365 * Moment.dayLength := by
    rw [stampAge, daysBetween, Int.fdiv_eq_ediv_of_nonneg _ (by decide), hday]
    omega
  refine ⟨decide (stampAge site.now m < 365), es, ?_, ?_, ?_⟩
  · rw [hes, stampVerdict, hnone]
    rfl
  · rw [decide_eq_true_eq, hage]
  · rw [decide_eq_true_eq, hage, abs_lt]
    omega

def noon : Moment := { date := ⟨2026, 12, 31⟩, hour := 12, offset := some 0 }

theorem checkVerified_iff_noon : ∃ verified es,
    checkVerified (.moment noon) firstDay default = (.ok verified, World.logged default es) ∧
      verified = false := by
  obtain ⟨verified, es, hcheck, hverified, -⟩ := checkVerified_iff (m := noon) rfl firstDay default
  refine ⟨verified, es, hcheck, Bool.eq_false_iff.mpr fun h => ?_⟩
  exact absurd (hverified.mp h) (by decide)

/-- A stamp less than a year ahead is refused. -/
theorem checkVerified_ahead : |firstDay.now.instant - noon.instant| < 365 * Moment.dayLength ∧
    (checkVerified (.moment noon) firstDay default).1 = .ok false := by
  decide +kernel

end Metadata

end AssetCatalog
