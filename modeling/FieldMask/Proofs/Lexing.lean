import FieldMask.Mask.Text
import Mathlib.Data.List.Chain

/-! How texts split into tokens. A character that cannot stand in a name ends the name before it, so the
    tokens of a text fall apart there (`scan_append_cons`). Hence the text of tokens reads back as the same
    tokens, unless two names stand next to each other, which would run together (`namesApart_scan`). -/

namespace FieldMask

/-- Whether the token is a field name. -/
def Token.isName : Token → Bool
  | .name _ => true
  | _ => false

/-- No two field names stand next to each other. -/
def NamesApart (tokens : List Token) : Prop := tokens.IsChain fun first second => (first.isName && second.isName) = false

/-- All field names among the tokens are names that a text can spell. -/
def SpellableNames (tokens : List Token) : Prop := ∀ name, Token.name name ∈ tokens → isFieldName name = true

theorem isFieldName_iff {name : String} :
    isFieldName name = true ↔ name.toList ≠ [] ∧ ∀ c ∈ name.toList, isNameChar c = true := by
  simp [isFieldName]

theorem SpellableNames.append {tokens more : List Token} (ht : SpellableNames tokens) (hm : SpellableNames more) :
    SpellableNames (tokens ++ more) := fun name h => (List.mem_append.mp h).elim (ht name) (hm name)

namespace Token

theorem isNameChar_of_mem_name {name : String} {c : Char} (h : isFieldName name = true) (hc : c ∈ name.toList) :
    isNameChar c = true :=
  (isFieldName_iff.mp h).2 c hc

/-- A bracket or a comma is one character, and no part of a name. -/
theorem chars_of_not_isName {token : Token} (h : token.isName = false) :
    ∃ c, token.chars = [c] ∧ isNameChar c = false ∧ ofMark c = [token] := by
  cases token with
  | opening => exact ⟨'{', rfl, by decide, rfl⟩
  | closing => exact ⟨'}', rfl, by decide, rfl⟩
  | comma => exact ⟨',', rfl, by decide, rfl⟩
  | name name => cases h

/-- A token is made of name characters, or it is a bracket or a comma. -/
theorem of_mem_chars {tokens : List Token} (h : SpellableNames tokens) {c : Char} (hc : c ∈ tokens.flatMap chars) :
    isNameChar c = true ∨ c ∈ ['{', '}', ','] := by
  obtain ⟨token, ht, hc⟩ := List.mem_flatMap.mp hc
  cases token with
  | name name => exact Or.inl (isNameChar_of_mem_name (h name ht) hc)
  | opening | closing | comma =>
    obtain rfl := List.mem_singleton.mp hc
    exact Or.inr (by decide)

/-! ### Scanning -/

theorem scan_of_isNameChar {text : List Char} (h : ∀ c ∈ text, isNameChar c = true) (read : List Char) :
    scan read text = ofRead (text.reverse ++ read) := by
  induction text generalizing read with
  | nil => rfl
  | cons c rest ih =>
    rw [scan, if_pos (h c List.mem_cons_self), ih (fun d hd => h d (List.mem_cons_of_mem _ hd))]
    simp

theorem scan_append_cons {c : Char} (hc : isNameChar c = false) (read text rest : List Char) :
    scan read (text ++ c :: rest) = scan read text ++ (ofMark c ++ scan [] rest) := by
  induction text generalizing read with
  | nil => simp [scan, hc]
  | cons d text ih =>
    cases hd : isNameChar d
    · simp [scan, hd, ih]
    · simp only [List.cons_append, scan, hd, if_true]
      exact ih _

theorem scan_nil_cons {c : Char} (hc : isNameChar c = false) (rest : List Char) :
    scan [] (c :: rest) = ofMark c ++ scan [] rest := by
  simp [scan, hc, ofRead]

theorem scan_name {name : String} (h : isFieldName name = true) : scan [] name.toList = [.name name] := by
  obtain ⟨hne, hall⟩ := isFieldName_iff.mp h
  rw [scan_of_isNameChar hall, List.append_nil]
  cases hr : name.toList.reverse with
  | nil => exact absurd (List.reverse_eq_nil_iff.mp hr) hne
  | cons c before =>
    rw [ofRead, ← hr, List.reverse_reverse, String.ofList_toList]

theorem spellableNames_ofRead {read : List Char} (h : ∀ c ∈ read, isNameChar c = true) :
    SpellableNames (ofRead read) := by
  intro name hn
  cases read with
  | nil => cases hn
  | cons c before =>
    obtain rfl := Token.name.inj (List.mem_singleton.mp hn)
    refine isFieldName_iff.mpr ⟨by simp, fun d hd => h d ?_⟩
    simpa [or_comm] using hd

theorem spellableNames_ofMark (c : Char) : SpellableNames (ofMark c) := by
  intro name hn
  unfold ofMark at hn
  split at hn
  · simp at hn
  · split at hn
    · simp at hn
    · split at hn <;> simp at hn

theorem spellableNames_scan {read : List Char} (h : ∀ c ∈ read, isNameChar c = true) (text : List Char) :
    SpellableNames (scan read text) := by
  induction text generalizing read with
  | nil => exact spellableNames_ofRead h
  | cons c rest ih =>
    unfold scan
    split
    · next hc => exact ih fun d hd => (List.mem_cons.mp hd).elim (fun heq => heq ▸ hc) (h d)
    · exact ((spellableNames_ofRead h).append (spellableNames_ofMark c)).append (ih (by simp))

/-- The text of tokens reads back as the tokens. -/
theorem scan_flatMap_chars {tokens : List Token} (hn : SpellableNames tokens) (ha : NamesApart tokens) :
    scan [] (tokens.flatMap chars) = tokens := by
  induction tokens with
  | nil => rfl
  | cons token rest ih =>
    have ih := ih (fun name hm => hn name (List.mem_cons_of_mem _ hm)) ha.tail
    rw [List.flatMap_cons]
    cases token with
    | name name =>
      have hname := hn name List.mem_cons_self
      cases rest with
      | nil => simpa [chars] using scan_name hname
      | cons next rest =>
        -- The next token is no name, so its character ends this one.
        obtain ⟨c, hchars, hc, hmark⟩ := chars_of_not_isName (by simpa [isName] using (List.isChain_cons_cons.mp ha).1)
        rw [List.flatMap_cons, hchars, List.singleton_append] at ih ⊢
        rw [scan_nil_cons hc] at ih
        rw [chars, scan_append_cons hc, scan_name hname, ih, List.singleton_append]
    | opening | closing | comma =>
      rw [chars, List.singleton_append, scan_nil_cons (by decide), ih]
      rfl

/-- Where no character is passed over, two names cannot follow each other: what ends the first is a token. -/
theorem namesApart_scan {text : List Char} (h : ∀ c ∈ text, isNameChar c = true ∨ c ∈ ['{', '}', ',']) (read : List Char) :
    NamesApart (scan read text) := by
  induction text generalizing read with
  | nil => cases read <;> simp [scan, ofRead, NamesApart]
  | cons c rest ih =>
    have ih := ih fun d hd => h d (List.mem_cons_of_mem _ hd)
    unfold scan
    split
    · exact ih (c :: read)
    · next hc =>
      have hm : c ∈ ['{', '}', ','] := (h c List.mem_cons_self).resolve_left hc
      obtain ⟨mark, hmark, hn⟩ : ∃ mark, ofMark c = [mark] ∧ mark.isName = false := by
        rcases List.mem_cons.mp hm with rfl | hm
        · exact ⟨.opening, rfl, rfl⟩
        rcases List.mem_cons.mp hm with rfl | hm
        · exact ⟨.closing, rfl, rfl⟩
        · obtain rfl := List.mem_singleton.mp hm
          exact ⟨.comma, rfl, rfl⟩
      have after : NamesApart (mark :: scan [] rest) := (ih []).cons fun next _ => by simp [hn]
      rw [hmark, List.append_assoc, List.singleton_append]
      cases read with
      | nil => exact after
      | cons d before => exact List.isChain_cons_cons.mpr ⟨by simp [hn], after⟩

end Token

theorem spellableNames_tokenize (text : String) : SpellableNames (tokenize text) :=
  Token.spellableNames_scan (by simp) text.toList

theorem toList_join_text (tokens : List Token) : (String.join (tokens.map Token.text)).toList = tokens.flatMap Token.chars := by
  simp [List.flatMap_map, Token.text]

theorem tokenize_join_text_iff {tokens : List Token} :
    tokenize (String.join (tokens.map Token.text)) = tokens ↔ SpellableNames tokens ∧ NamesApart tokens := by
  rw [tokenize, toList_join_text]
  constructor
  · intro h
    have hn : SpellableNames tokens := h ▸ Token.spellableNames_scan (by simp) _
    have ha := Token.namesApart_scan (fun _ hc => Token.of_mem_chars hn hc) []
    rw [h] at ha
    exact ⟨hn, ha⟩
  · rintro ⟨hn, ha⟩
    exact Token.scan_flatMap_chars hn ha

/-- A text falls apart at each character that cannot stand in a name, into the tokens before it, its own one if it is a
    bracket or a comma, and the tokens after it. A name is a field name exactly if it is one token by itself. So the
    texts of tokens, put together, read back as the tokens, exactly if the names are field names and no two of them
    stand next to each other. -/
theorem tokenize_splits :
    (∀ (before after : String) (c : Char), isNameChar c = false →
      tokenize (before ++ String.singleton c ++ after) = tokenize before ++
        (if c = '{' then [.opening] else if c = '}' then [.closing] else if c = ',' then [.comma] else []) ++
        tokenize after) ∧
    (∀ name, isFieldName name = true ↔ tokenize name = [.name name]) ∧
    ∀ tokens : List Token, tokenize (String.join (tokens.map Token.text)) = tokens ↔
      (∀ name, .name name ∈ tokens → isFieldName name = true) ∧
      tokens.IsChain fun first second => ¬ (first.isName = true ∧ second.isName = true) := by
  refine ⟨fun before after c hc => ?_, fun name => ⟨Token.scan_name, fun h => ?_⟩, fun tokens => ?_⟩
  · rw [tokenize, String.toList_append, String.toList_append, String.toList_singleton, List.append_assoc,
      List.singleton_append, Token.scan_append_cons hc, List.append_assoc]
    rfl
  · exact spellableNames_tokenize name name (h ▸ List.mem_singleton_self _)
  · rw [tokenize_join_text_iff]
    simp [SpellableNames, NamesApart]

/-- A group after an accented name, and behind a slash, which is no token, one more name. -/
theorem tokenize_splits_at_slash :
    let tokens : List Token := [.name "prénom", .opening, .name "ns:*", .closing]
    isNameChar '/' = false ∧ isFieldName "prénom" = true ∧ isFieldName "ns:*" = true ∧ isFieldName "id" = true ∧
      tokenize (String.join (tokens.map Token.text) ++ String.singleton '/' ++ "id") = tokens ++ [.name "id"] := by
  intro tokens
  have hc : isNameChar '/' = false := by decide +kernel
  have accented : isFieldName "prénom" = true := by decide +kernel
  have starred : isFieldName "ns:*" = true := by decide +kernel
  have plain : isFieldName "id" = true := by decide +kernel
  obtain ⟨split, name, join⟩ := tokenize_splits
  have group : tokenize (String.join (tokens.map Token.text)) = tokens := by
    refine (join tokens).mpr ⟨fun name hm => ?_, by simp [tokens, Token.isName]⟩
    have hm : name = "prénom" ∨ name = "ns:*" := by simpa [tokens] using hm
    rcases hm with rfl | rfl
    · exact accented
    · exact starred
  refine ⟨hc, accented, starred, plain, ?_⟩
  rw [split _ _ _ hc, group, (name "id").mp plain]
  rfl

end FieldMask
