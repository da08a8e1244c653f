import AssetCatalog.Json
import AssetCatalog.Proofs.Fault
import AssetCatalog.Proofs.Text

/-!
# Reading JSON

A value that has ended is read as it is whatever follows. A list of texts that is written is read back.
-/

namespace AssetCatalog.Json

open List

variable {s : String} {v : Value} {es : List (Value × Value)}
variable {cs r : List Char} {c : Char}

lemma skipSpace_append (h : skipSpace cs ≠ []) (q : List Char) :
    skipSpace (cs ++ q) = skipSpace cs ++ q := by
  rw [skipSpace, dropWhile_append, ← skipSpace]
  simp [h]

lemma skipSpace_cons_append (h : skipSpace cs = c :: r) (q : List Char) :
    skipSpace (cs ++ q) = c :: (r ++ q) := by
  rw [skipSpace_append (by simp [h]), h, cons_append]

lemma readText_append {units : List ℕ} (h : readText cs units = .ok (s, r))
    (q : List Char) : readText (cs ++ q) units = .ok (s, r ++ q) := by
  fun_induction readText cs units with
  | case1 =>
    cases h
    rfl
  | case2 _ a b c d rest ds hds ih =>
    simp only [cons_append, readText, hds]
    exact ih h
  | case3 | case5 | case6 | case8 => cases h
  | case4 c rest units _ n hn ih =>
    have hc : c ≠ 'u' := by
      rintro rfl
      cases hn
    rw [cons_append, cons_append, readText]
    · rw [hn]
      exact ih h
    · exact fun _ _ _ _ _ hu => absurd hu hc
  | case7 c rest units hquote _ _ hc ih =>
    have hslash : c ≠ '\\' := by
      rintro rfl
      exact hc rfl
    rw [cons_append, readText]
    · rw [if_neg hc]
      exact ih h
    · exact hquote
    · exact fun _ _ _ _ _ heq => absurd heq hslash
    · exact fun _ _ heq => absurd heq hslash

lemma readUnsigned_ne_map {negative : Bool} : readUnsigned negative cs ≠ .ok (.map es, r) := by
  intro h
  rw [readUnsigned] at h
  dsimp only at h
  obtain ⟨v, hv, h⟩ := except_bind_eq_ok.mp h
  cases h
  unfold numberOf at hv
  split at hv
  · cases hv
  · split at hv
    · obtain ⟨_, -, hv⟩ := except_bind_eq_ok.mp hv
      cases hv
    · cases hv

lemma readNumber_ne_map : readNumber cs ≠ .ok (.map es, r) := by
  intro h
  obtain ⟨⟨v, left⟩, hv, h⟩ := except_bind_eq_ok.mp h
  dsimp only at h
  split at h <;> cases h
  unfold readSigned at hv
  split at hv <;> exact readUnsigned_ne_map hv

lemma readNumber_append (h : readNumber cs = .ok (v, r)) (hr : r ≠ []) (q : List Char) :
    readNumber (cs ++ q) = .ok (v, r ++ q) := by
  obtain ⟨⟨u, left⟩, hu, h⟩ := except_bind_eq_ok.mp h
  dsimp only at h
  split at h
  · next hleft =>
    cases h
    have hshort : (cs.takeWhile isNumberPart).length ≠ cs.length := by
      intro hall
      have hlength := congrArg List.length (@takeWhile_append_dropWhile _ isNumberPart cs)
      rw [length_append, hall, Nat.add_eq_left, length_eq_zero_iff] at hlength
      exact hr hlength
    rw [readNumber, takeWhile_append, if_neg hshort, dropWhile_append, if_neg (by simpa using hr), hu]
    exact if_pos hleft
  · cases h

lemma word?_append {w : String} {u : Value} (h : word? w u cs = .ok (v, r)) (q : List Char) :
    word? w u (cs ++ q) = .ok (v, r ++ q) := by
  rw [word?] at h ⊢
  split at h
  · next hword =>
    cases h
    obtain ⟨rest, rfl⟩ := isPrefixOf_iff_prefix.mp hword
    rw [if_pos (by simp), append_assoc, ← String.length_toList, drop_left,
      drop_left]
    rfl
  · cases h

section Extends

variable {α : Type} {close : Char} {all : α} {f g : Reader α} {q : List Char}

/-- What `f` reads is read by `g` if `q` follows. -/
def Extends (q : List Char) (f g : Reader α) : Prop :=
  ∀ cs a r, f cs = .ok (a, r) → g (cs ++ q) = .ok (a, r ++ q)

lemma Extends.map (hfg : Extends q f g) (h : α → Value) :
    Extends q (fun cs => (f cs).map fun (a, r) => (h a, r)) fun cs => (g cs).map fun (a, r) => (h a, r) := by
  intro cs b r hb
  dsimp only at hb ⊢
  rcases hf : f cs with e | ⟨a, r'⟩ <;> rw [hf] at hb <;> cases hb
  rw [hfg cs a _ hf]
  rfl

lemma Extends.bracket (hfg : Extends q f g) :
    Extends q (readBracket close all f) (readBracket close all g) := by
  intro cs a r h
  rw [readBracket] at h ⊢
  rcases hcs : skipSpace cs with _ | ⟨c, rest⟩ <;> rw [hcs] at h
  · cases h
  · rw [skipSpace_cons_append hcs]
    dsimp only at h ⊢
    split_ifs at h ⊢ with hclose
    · cases h
      rfl
    · exact hfg _ _ _ h

lemma Extends.more (hfg : Extends q f g) (hnil : f [] = .error .json) :
    Extends q (readMore close f all) (readMore close g all) := by
  intro cs a r h
  rw [readMore] at h ⊢
  rcases hcs : skipSpace cs with _ | ⟨c, rest⟩ <;> rw [hcs] at h
  · cases h
  · rw [skipSpace_cons_append hcs]
    dsimp only at h ⊢
    split_ifs at h ⊢ with hcomma hclose
    · have hne : skipSpace rest ≠ [] := by
        intro hrest
        rw [hrest, hnil] at h
        cases h
      rw [skipSpace_append hne]
      exact hfg _ _ _ h
    · cases h
      rfl

lemma ne_nil_of_readMore {x : α × List Char} (h : readMore close f all r = .ok x) : r ≠ [] := by
  rintro rfl
  cases h

end Extends

section Local

variable (n k : ℕ) (q : List Char)

/-- Neither what follows a value that has ended nor more fuel matters for reading it. -/
def ValuesLocal : Prop := ∀ cs v r, readValue n cs = .ok (v, r) →
  r ≠ [] ∨ (∃ es, v = .map es) → readValue (n + k) (cs ++ q) = .ok (v, r ++ q)

def ItemsLocal : Prop := ∀ acc, Extends q (readItems n acc) (readItems (n + k) acc)

def EntriesLocal : Prop := ∀ acc, Extends q (readEntries n acc) (readEntries (n + k) acc)

variable {n k q}

lemma readValue_nil (n : ℕ) : readValue n [] = .error .json := by
  cases n <;> rfl

lemma readItems_nil (n : ℕ) (acc : List Value) : readItems n acc [] = .error .json := by
  rcases n with _ | n
  · rfl
  · rw [readItems, readValue_nil]
    rfl

lemma readEntries_nil (n : ℕ) (acc : List (Value × Value)) : readEntries n acc [] = .error .json := by
  cases n <;> rfl

lemma readItems_local (hvalues : ValuesLocal n k q) (hitems : ItemsLocal n k q) :
    ItemsLocal (n + 1) k q := by
  intro acc cs xs r h
  obtain ⟨⟨v, rest⟩, hv, h⟩ := except_bind_eq_ok.mp h
  rw [Nat.succ_add, readItems, hvalues cs v rest hv (.inl (ne_nil_of_readMore h)), except_ok_bind]
  exact (hitems _).more (readItems_nil n _) rest xs r h

lemma readEntries_local (hvalues : ValuesLocal n k q) (hentries : EntriesLocal n k q) :
    EntriesLocal (n + 1) k q := by
  intro acc cs es r h
  rw [readEntries.eq_def] at h
  dsimp only at h
  split at h
  · next rest =>
    obtain ⟨⟨key, rest'⟩, hkey, h⟩ := except_bind_eq_ok.mp h
    split at h
    · next more hmore =>
      obtain ⟨⟨v, rest''⟩, hv, h⟩ := except_bind_eq_ok.mp h
      have hne : skipSpace more ≠ [] := by
        intro hnil
        rw [hnil, readValue_nil] at hv
        cases hv
      rw [Nat.succ_add, cons_append, readEntries, readText_append hkey, except_ok_bind]
      simp only [skipSpace_cons_append hmore, skipSpace_append hne]
      rw [hvalues _ v _ hv (.inl (ne_nil_of_readMore h)), except_ok_bind]
      exact (hentries _).more (readEntries_nil n _) rest'' es r h
    · cases h
  · cases h

lemma readValue_local (hitems : ItemsLocal n k q) (hentries : EntriesLocal n k q) :
    ValuesLocal (n + 1) k q := by
  intro cs v r h hend
  rw [readValue.eq_def] at h
  dsimp only at h
  rw [Nat.succ_add]
  split at h
  · cases h
  · rw [cons_append, readValue]
    have htext : Extends q (readText · []) (readText · []) := fun _ _ _ h => readText_append h q
    exact htext.map .text _ _ _ h
  · rw [cons_append, readValue]
    exact (hitems []).bracket.map .list _ _ _ h
  · rw [cons_append, readValue]
    exact (hentries []).bracket.map .map _ _ _ h
  · exact word?_append h q
  · exact word?_append h q
  · exact word?_append h q
  · exact word?_append h q
  · exact word?_append h q
  · exact word?_append h q
  · next h1 h2 h3 h4 h5 h6 h7 h8 h9 h10 =>
    have hr : r ≠ [] := by
      refine hend.resolve_right ?_
      rintro ⟨es, rfl⟩
      exact readNumber_ne_map h
    rw [← readNumber_append h hr q]
    rcases cs with _ | ⟨c, cs⟩
    · exact absurd rfl h1
    · have hhead {x : Char} (hx : ∀ rest, c :: cs = x :: rest → False) (tail : List Char) :
          c :: (cs ++ q) = x :: tail → False := by
        rintro ⟨⟩
        exact hx _ rfl
      have hminus (tail : List Char) : c :: (cs ++ q) = '-' :: 'I' :: tail → False := by
        rcases cs with _ | ⟨d, cs⟩
        · rintro ⟨⟩
          cases h
        · rintro ⟨⟩
          exact h10 _ rfl
      rw [cons_append, readValue]
      exacts [nofun, hhead h2, hhead h3, hhead h4, hhead h5, hhead h6, hhead h7, hhead h8, hhead h9, hminus]

lemma read_local (n k : ℕ) (q : List Char) :
    ValuesLocal n k q ∧ ItemsLocal n k q ∧ EntriesLocal n k q := by
  induction n with
  | zero => exact ⟨nofun, nofun, nofun⟩
  | succ n ih =>
    obtain ⟨hvalues, hitems, hentries⟩ := ih
    exact ⟨readValue_local hitems hentries, readItems_local hvalues hitems,
      readEntries_local hvalues hentries⟩

end Local

lemma parse_eq_ok (h : parse s = .ok v) :
    ∃ rest, readValue (2 * (skipSpace s.toList).length + 2) (skipSpace s.toList) = .ok (v, rest) ∧
      skipSpace rest = [] := by
  obtain ⟨⟨u, rest⟩, hread, h⟩ := except_bind_eq_ok.mp h
  dsimp only at h
  split at h
  · next hempty =>
    cases h
    exact ⟨rest, hread, isEmpty_iff.mp hempty⟩
  · cases h

lemma skipSpace_ne_nil_of_parse (h : parse s = .ok v) : skipSpace s.toList ≠ [] := by
  obtain ⟨rest, hread, -⟩ := parse_eq_ok h
  intro hnil
  rw [hnil, readValue_nil] at hread
  cases hread

lemma parse_append {q : String} (h : parse s = .ok (.map es))
    (hq : skipSpace q.toList ≠ []) : parse (s ++ q) = .error .json := by
  obtain ⟨rest, hread, hrest⟩ := parse_eq_ok h
  have hall := (read_local _ (2 * q.toList.length) q.toList).1 _ _ _ hread
    (.inr ⟨es, rfl⟩)
  have hafter : skipSpace (rest ++ q.toList) = skipSpace q.toList := by
    rw [skipSpace, dropWhile_append, ← skipSpace, hrest]
    rfl
  rw [parse, String.toList_append, skipSpace_append (skipSpace_ne_nil_of_parse h), length_append,
    Nat.mul_add, Nat.add_right_comm, hall]
  simp only [except_ok_bind, hafter, List.isEmpty_iff, hq]
  rfl

/-! ## Texts that are written and read back -/

/-- The code units of a character: one, or two surrogates. -/
def units (c : Char) : List ℕ :=
  if c.toNat < 0x10000 then [c.toNat]
  else [0xd800 + (c.toNat - 0x10000) / 1024, 0xdc00 + (c.toNat - 0x10000) % 1024]

lemma joinUnits_units (cs : List Char) : joinUnits (cs.flatMap units) = cs := by
  have hsingle (n : ℕ) (ns : List ℕ) (hn : n < 0xd800 ∨ 0xdbff < n) :
      joinUnits (n :: ns) = unitChar n :: joinUnits ns := by
    cases ns with
    | nil => simp [joinUnits]
    | cons m ns =>
      rw [joinUnits, if_neg]
      simp only [Bool.and_eq_true, decide_eq_true_eq]
      omega
  induction cs with
  | nil => rfl
  | cons c cs ih =>
    have hvalid : c.toNat < 0xd800 ∨ 0xdfff < c.toNat ∧ c.toNat < 0x110000 := c.valid
    rw [flatMap_cons, units]
    split
    · rw [singleton_append, hsingle _ _ (by omega), ih, unitChar, if_pos, Char.ofNat_toNat]
      simp only [Bool.or_eq_true, decide_eq_true_eq]
      omega
    · have hcode : 0x10000 + (0xd800 + (c.toNat - 0x10000) / 1024 - 0xd800) * 1024 +
          (0xdc00 + (c.toNat - 0x10000) % 1024 - 0xdc00) = c.toNat := by omega
      rw [cons_append, singleton_append, joinUnits, if_pos, ih, hcode, Char.ofNat_toNat]
      simp only [Bool.and_eq_true, decide_eq_true_eq]
      omega

lemma toList_hexPadded_succ {k : ℕ} (hk : 0 < k) (n : ℕ) : (Text.hexPadded (k + 1) n).toList =
    (Text.hexPadded k (n / 16)).toList ++ [(n % 16).digitChar] := by
  simp only [Text.hexPadded, String.toList_ofList]
  rcases Nat.lt_or_ge n 16 with hn | hn
  · obtain ⟨k, rfl⟩ := Nat.exists_eq_add_one.mpr hk
    have hzero : Nat.toDigits 16 0 = ['0'] := rfl
    rw [Nat.toDigits_of_lt_base hn, Nat.div_eq_of_lt hn, hzero, Nat.mod_eq_of_lt hn, length_singleton,
      length_singleton, Nat.add_sub_cancel, Nat.add_sub_cancel, ← replicate_succ']
  · rw [Nat.toDigits_of_base_le (by decide) hn, length_append, length_singleton, Nat.add_sub_add_right,
      append_assoc]

lemma toList_hexPadded {n : ℕ} (hn : n < 0x10000) : (Text.hexPadded 4 n).toList =
    [n / 4096, n / 256 % 16, n / 16 % 16, n % 16].map Nat.digitChar := by
  have hfirst : (Text.hexPadded 1 (n / 16 / 16 / 16)).toList = [(n / 16 / 16 / 16).digitChar] := by
    rw [Text.hexPadded, Nat.toDigits_of_lt_base (by omega)]
    simp
  rw [toList_hexPadded_succ (by decide), toList_hexPadded_succ (by decide),
    toList_hexPadded_succ (by decide), hfirst]
  simp [Nat.div_div_eq_div_mul]

lemma hexValue?_digitChar : ∀ d < 16, hexValue? d.digitChar = some d := by decide

lemma readText_hex {n : ℕ} (hn : n < 0x10000) (rest : List Char) (us : List ℕ) :
    readText ('\\' :: 'u' :: ((Text.hexPadded 4 n).toList ++ rest)) us = readText rest (n :: us) := by
  have hdigits : ([n / 4096, n / 256 % 16, n / 16 % 16, n % 16].map Nat.digitChar).mapM hexValue? =
      some [n / 4096, n / 256 % 16, n / 16 % 16, n % 16] := by
    simp [hexValue?_digitChar _ (show n / 4096 < 16 by omega), hexValue?_digitChar _ (Nat.mod_lt _ (by decide : 0 < 16))]
  have hvalue : (((0 * 16 + n / 4096) * 16 + n / 256 % 16) * 16 + n / 16 % 16) * 16 + n % 16 = n := by omega
  rw [toList_hexPadded hn]
  simp only [map_cons, map_nil, cons_append, nil_append] at hdigits ⊢
  rw [readText, hdigits]
  simp only [foldl_cons, foldl_nil, hvalue]

lemma readText_escaped (c : Char) (rest : List Char) (us : List ℕ) :
    readText ((escapedChar c).toList ++ rest) us = readText rest ((units c).reverse ++ us) := by
  have hunit (n : ℕ) (hn : c.toNat = n) (hlt : n < 0x10000) : (units c).reverse ++ us = n :: us := by
    subst hn
    simp [units, hlt]
  by_cases hquote : c = '"'
  · subst hquote
    rfl
  by_cases hslash : c = '\\'
  · subst hslash
    rfl
  by_cases hline : c = '\n'
  · subst hline
    rfl
  by_cases hreturn : c = '\r'
  · subst hreturn
    rfl
  by_cases htab : c = '\t'
  · subst htab
    rfl
  rw [escapedChar, if_neg hquote, if_neg hslash, if_neg hline, if_neg hreturn, if_neg htab]
  by_cases hback : c.toNat = 8
  · rw [if_pos hback, hunit 8 hback (by decide)]
    rfl
  by_cases hfeed : c.toNat = 12
  · rw [if_neg hback, if_pos hfeed, hunit 12 hfeed (by decide)]
    rfl
  rw [if_neg hback, if_neg hfeed]
  by_cases hplain : (32 ≤ c.toNat && c.toNat < 127) = true
  · rw [if_pos hplain]
    simp only [Bool.and_eq_true, decide_eq_true_eq] at hplain
    rw [hunit _ rfl (by omega), String.toList_singleton, singleton_append, readText]
    · rw [if_neg]
      simp only [Bool.or_eq_true, decide_eq_true_eq, hslash, or_false]
      omega
    · exact hquote
    · exact fun _ _ _ _ _ h => absurd h hslash
    · exact fun _ _ h => absurd h hslash
  rw [if_neg hplain]
  by_cases hsmall : c.toNat < 0x10000
  · rw [if_pos hsmall, hunit _ rfl hsmall, String.toList_append, append_assoc]
    exact readText_hex hsmall rest us
  · have hvalid : c.toNat < 0xd800 ∨ 0xdfff < c.toNat ∧ c.toNat < 0x110000 := c.valid
    have hhigh := readText_hex (n := 0xd800 + (c.toNat - 0x10000) / 1024) (by omega)
    have hlow := readText_hex (n := 0xdc00 + (c.toNat - 0x10000) % 1024) (by omega)
    rw [if_neg hsmall, units, if_neg hsmall]
    simp only [String.toList_append, append_assoc]
    exact (hhigh _ us).trans (hlow rest _)

lemma readText_escapedAll (cs rest : List Char) (us : List ℕ) :
    readText ((cs.flatMap fun c => (escapedChar c).toList) ++ '"' :: rest) us =
      .ok (String.ofList (joinUnits (us.reverse ++ cs.flatMap units)), rest) := by
  induction cs generalizing us with
  | nil =>
    rw [flatMap_nil, flatMap_nil, append_nil]
    rfl
  | cons c cs ih =>
    rw [flatMap_cons, append_assoc, readText_escaped, ih, flatMap_cons]
    simp

lemma toList_quoted (s : String) :
    (quoted s).toList = '"' :: ((s.toList.flatMap fun c => (escapedChar c).toList) ++ ['"']) := by
  have hjoin (cs : List Char) : (String.join (cs.map escapedChar)).toList =
      cs.flatMap fun c => (escapedChar c).toList := by
    simp [flatMap_map]
  simp [quoted, hjoin]

lemma readValue_quoted (n : ℕ) (s : String) (rest : List Char) :
    readValue (n + 1) ((quoted s).toList ++ rest) = .ok (.text s, rest) := by
  rw [toList_quoted, cons_append, append_assoc, singleton_append, readValue, readText_escapedAll]
  simp [joinUnits_units, Except.map]

lemma toList_join_quoted (x : String) (xs : List String) :
    ∃ t, (Text.join ", " ((x :: xs).map quoted)).toList = '"' :: t ∧ xs.length ≤ t.length := by
  induction xs generalizing x with
  | nil => exact ⟨_, toList_quoted x, Nat.zero_le _⟩
  | cons y xs ih =>
    obtain ⟨t, ht, hlength⟩ := ih y
    rw [map_cons, map_cons, Text.join_cons_cons, ← map_cons, String.toList_append, String.toList_append,
      toList_quoted, ht]
    refine ⟨_, rfl, ?_⟩
    simp
    omega

lemma readItems_texts (n : ℕ) (x : String) (xs : List String) (rest : List Char) (acc : List Value) :
    readItems (n + xs.length + 2) acc ((Text.join ", " ((x :: xs).map quoted)).toList ++ ']' :: rest) =
      .ok (acc.reverse ++ (x :: xs).map .text, rest) := by
  induction xs generalizing x acc with
  | nil =>
    have hone : Text.join ", " ([x].map quoted) = quoted x := rfl
    rw [hone, readItems, readValue_quoted]
    simp [readMore, skipSpace, isSpace]
  | cons y xs ih =>
    obtain ⟨t, ht, -⟩ := toList_join_quoted y xs
    have ih := ih y (.text x :: acc)
    rw [map_cons, map_cons, Text.join_cons_cons, ← map_cons, String.toList_append, String.toList_append,
      append_assoc, append_assoc, readItems, length_cons, ← Nat.add_assoc, readValue_quoted]
    rw [ht] at ih ⊢
    simpa [readMore, skipSpace, isSpace, Nat.add_right_comm _ 1] using ih

lemma parse_compact_texts (xs : List String) :
    parse (compact (.list (xs.map .text))) = .ok (.list (xs.map .text)) := by
  have hall (xs : List String) : compactAll (xs.map .text) = xs.map quoted := by
    induction xs with
    | nil => rfl
    | cons x xs ih => rw [map_cons, compactAll, ih]; rfl
  rw [compact, hall]
  cases xs with
  | nil => rfl
  | cons x xs =>
    obtain ⟨t, ht, hlength⟩ := toList_join_quoted x xs
    have hitems := readItems_texts (2 * t.length + 5 - xs.length) x xs [] []
    have hfuel : 2 * t.length + 5 - xs.length + xs.length + 2 = 2 * t.length + 7 := by omega
    have htext : ("[" ++ Text.join ", " ((x :: xs).map quoted) ++ "]").toList =
        '[' :: '"' :: (t ++ [']']) := by
      rw [String.toList_append, String.toList_append, ht]
      rfl
    have hskip (c : Char) (cs : List Char) (hc : isSpace c = false) : skipSpace (c :: cs) = c :: cs := by
      simp [skipSpace, hc]
    have hlong : 2 * ('[' :: '"' :: (t ++ [']'])).length + 2 = 2 * t.length + 7 + 1 := by
      simp
      omega
    rw [hfuel, ht, cons_append] at hitems
    have hvalue : readValue (2 * t.length + 7 + 1) ('[' :: '"' :: (t ++ [']'])) =
        .ok (.list ((x :: xs).map .text), []) := by
      rw [readValue, readBracket, hskip _ _ rfl]
      exact congrArg (Except.map fun read => (Value.list read.1, read.2)) hitems
    rw [parse, htext, hskip _ _ rfl, hlong, hvalue]
    rfl

end AssetCatalog.Json
