import FieldMask.Proofs.RoundTrip
import Mathlib.Data.List.TakeWhile

/-! Layout says nothing. White space stands in no token and makes none, so a text has the tokens that are left when it
    is trimmed (`Token.scan_trim`). Hence line breaks, white space around a text and the outer brackets change neither
    the mask that is read nor the error. -/

namespace FieldMask

namespace Unicode

theorem exists_of_inRanges {point : Nat} {ranges : List (Nat × Nat)} (h : inRanges point ranges = true) :
    ∃ range ∈ ranges, range.1 ≤ point ∧ point ≤ range.2 := by
  induction ranges with
  | nil => cases h
  | cons range rest ih =>
    simp only [inRanges, Bool.and_eq_true, Bool.or_eq_true, decide_eq_true_eq] at h
    obtain ⟨hf, hl | hr⟩ := h
    · exact ⟨range, List.mem_cons_self, hf, hl⟩
    · obtain ⟨found, hm, hb⟩ := ih hr
      exact ⟨found, List.mem_cons_of_mem _ hm, hb⟩

theorem isWord_of_isSpace {c : Char} (h : isSpace c = true) : isWord c = false := by
  have apart : ∀ range ∈ spaceRanges, ∀ offset ≤ range.2 - range.1, inRanges (range.1 + offset) wordRanges = false := by
    decide +kernel
  obtain ⟨range, hm, hf, hl⟩ := exists_of_inRanges h
  have := apart range hm (c.toNat - range.1) (by omega)
  rwa [Nat.add_sub_cancel' hf] at this

end Unicode

/-- Characters that are all white space. -/
def Blank (text : List Char) : Prop := ∀ c ∈ text, Unicode.isSpace c = true

theorem Blank.filter {text : List Char} (h : Blank text) (keep : Char → Bool) : Blank (text.filter keep) :=
  fun c hc => h c (List.mem_of_mem_filter hc)

/-! ### Trimming -/

theorem trim_append_append {before after : List Char} (hb : Blank before) (ha : Blank after) (text : List Char) :
    trim (before ++ text ++ after) = trim text := by
  rw [trim, List.append_assoc, List.dropWhile_append_of_pos hb, List.dropWhile_append]
  split
  · next ht =>
    -- The text itself is blank, and nothing is left of it.
    rw [List.dropWhile_eq_nil_iff.mpr ha, trim, List.isEmpty_iff.mp ht]
  · rw [List.reverse_append, List.dropWhile_append_of_pos fun c hc => ha c (List.mem_reverse.mp hc), trim]

theorem exists_append_trim_append (text : List Char) :
    ∃ before after, Blank before ∧ Blank after ∧ text = before ++ trim text ++ after := by
  let rest := text.dropWhile Unicode.isSpace
  refine ⟨text.takeWhile Unicode.isSpace, (rest.reverse.takeWhile Unicode.isSpace).reverse, ?_, ?_, ?_⟩
  · exact fun c hc => List.mem_takeWhile_imp hc
  · exact fun c hc => List.mem_takeWhile_imp (List.mem_reverse.mp hc)
  · rw [trim, List.append_assoc, ← List.reverse_append, List.takeWhile_append_dropWhile, List.reverse_reverse,
      List.takeWhile_append_dropWhile]

/-! ### Scanning -/

namespace Token
variable {gap : List Char} {c : Char}

theorem discarded_of_isSpace (h : Unicode.isSpace c = true) : isNameChar c = false ∧ ofMark c = [] := by
  have ne {d : Char} (hd : Unicode.isSpace d = false) : c ≠ d := by
    rintro rfl
    rw [h] at hd
    cases hd
  constructor
  · simp [isNameChar, Unicode.isWord_of_isSpace h, ne (d := ':') (by decide), ne (d := '-') (by decide),
      ne (d := '*') (by decide)]
  · simp [ofMark, ne (d := '{') (by decide), ne (d := '}') (by decide), ne (d := ',') (by decide)]

theorem scan_blank_append (h : Blank gap) (text : List Char) : scan [] (gap ++ text) = scan [] text := by
  induction gap with
  | nil => rfl
  | cons c rest ih =>
    obtain ⟨hc, hm⟩ := discarded_of_isSpace (h c List.mem_cons_self)
    rw [List.cons_append, scan_nil_cons hc, hm, List.nil_append, ih fun d hd => h d (List.mem_cons_of_mem _ hd)]

theorem scan_append_blank (text : List Char) (h : Blank gap) : scan [] (text ++ gap) = scan [] text := by
  cases gap with
  | nil => rw [List.append_nil]
  | cons c rest =>
    obtain ⟨hc, hm⟩ := discarded_of_isSpace (h c List.mem_cons_self)
    have hr : scan [] rest = [] := by
      have := scan_blank_append (fun d hd => h d (List.mem_cons_of_mem _ hd)) []
      rwa [List.append_nil] at this
    rw [scan_append_cons hc, hm, hr, List.append_nil, List.append_nil]

theorem scan_trim (text : List Char) : scan [] (trim text) = scan [] text := by
  obtain ⟨before, after, hb, ha, heq⟩ := exists_append_trim_append text
  conv_rhs => rw [heq]
  rw [List.append_assoc, scan_blank_append hb, scan_append_blank _ ha]

end Token

/-! ### Reading -/

/-- The characters of the text, but for the line breaks. -/
def unbroken (text : String) : List Char := text.toList.filter (· ≠ '\n')

namespace Mask

theorem parse_eq (text : String) (skip : Bool) :
    parse text skip = (stripBrackets (trim (unbroken text)) >>= fun inside => ofTokens skip (Token.scan [] inside)) := by
  rw [parse, clean, unbroken]
  cases stripBrackets _ with
  | error cause => rfl
  | ok inside => simp [tokenize]

theorem stripBrackets_of_head?_ne {text : List Char} (h : text.head? ≠ some '{') : stripBrackets text = .ok text := by
  unfold stripBrackets
  split
  · exact absurd rfl h
  · rfl

theorem parse_bracketed {text : String} (h : (trim (unbroken text)).head? ≠ some '{') (skip : Bool) :
    parse ("\x7b" ++ text ++ "\x7d") skip = parse text skip := by
  have hu : unbroken ("\x7b" ++ text ++ "\x7d") = '{' :: (unbroken text ++ ['}']) := by
    simp [unbroken]
  have hs : stripBrackets ('{' :: (unbroken text ++ ['}'])) = .ok (unbroken text) := by
    simp [stripBrackets]
  -- white space that stood around the text stands inside the brackets now and is not trimmed, but it makes no token
  rw [parse_eq, parse_eq, hu, trim_eq_self (by decide) (by decide), hs, stripBrackets_of_head?_ne h, ok_bind, ok_bind,
    Token.scan_trim]

end Mask

/-- Layout does not change what is read, whether that is a mask or an error: not the line breaks, not white space around
    the text, and not brackets around a text that does not begin with one of its own. -/
theorem parse_ignores_layout (text : String) (skip : Bool) :
    Mask.parse (String.ofList (unbroken text)) skip = Mask.parse text skip ∧
    (∀ before after : String, Blank before.toList → Blank after.toList →
      Mask.parse (before ++ text ++ after) skip = Mask.parse text skip) ∧
    ((trim (unbroken text)).head? ≠ some '{' → Mask.parse ("\x7b" ++ text ++ "\x7d") skip = Mask.parse text skip) := by
  refine ⟨?_, fun before after hb ha => ?_, fun h => Mask.parse_bracketed h skip⟩
  · have hu : unbroken (String.ofList (unbroken text)) = unbroken text := by
      simp [unbroken]
    rw [Mask.parse_eq, hu, ← Mask.parse_eq]
  · have hu : unbroken (before ++ text ++ after) = unbroken before ++ unbroken text ++ unbroken after := by
      simp [unbroken]
    have ht := trim_append_append (hb.filter (· ≠ '\n')) (ha.filter (· ≠ '\n')) (unbroken text)
    rw [Mask.parse_eq, hu, unbroken, unbroken.eq_1 after, ht, ← Mask.parse_eq]

end FieldMask
