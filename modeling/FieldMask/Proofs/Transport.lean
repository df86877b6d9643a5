import FieldMask.Request
import FieldMask.Proofs.RoundTrip

/-! A mask on its way through the header of a request. Its text is made of characters that no header value has to
    leave out, and the bytes of the text read back as the text, hence as the mask. What the header map gives for a name
    is the value that came first, so no other header and no later value has a say. -/

namespace FieldMask

/-! ### Bytes -/

theorem fromUTF8?_toUTF8 (text : String) : String.fromUTF8? text.toUTF8 = some text := by
  rw [String.fromUTF8?, String.toUTF8_eq_toByteArray, dif_pos text.isValidUTF8]
  rfl

/-- The codes of the control characters of ASCII. The value of a header may have none of them but the tab. -/
abbrev IsControl (code : Nat) : Prop := code < 32 ∨ code = 127

/-- The bytes of a character that is no control character are none either. -/
theorem not_isControl_of_mem_utf8EncodeChar {c : Char} (hc : ¬ IsControl c.toNat) {byte : UInt8}
    (hb : byte ∈ String.utf8EncodeChar c) : ¬ IsControl byte.toNat := by
  have hv : c.val.toNat = c.toNat := rfl
  unfold String.utf8EncodeChar at hb
  simp only [hv] at hb
  split at hb
  · obtain rfl := List.mem_singleton.mp hb
    rw [UInt8.toNat_ofNat']
    omega
  · -- all bytes of a longer sequence are beyond ASCII
    split at hb
    · simp only [List.mem_cons, List.not_mem_nil, or_false] at hb
      rcases hb with rfl | rfl <;> rw [UInt8.toNat_ofNat'] <;> omega
    · split at hb
      · simp only [List.mem_cons, List.not_mem_nil, or_false] at hb
        rcases hb with rfl | rfl | rfl <;> rw [UInt8.toNat_ofNat'] <;> omega
      · simp only [List.mem_cons, List.not_mem_nil, or_false] at hb
        rcases hb with rfl | rfl | rfl | rfl <;> rw [UInt8.toNat_ofNat'] <;> omega

/-- Whether none of the bytes is a control character, so that they can be the value of a header. -/
def Headers.NoControls (value : ByteArray) : Prop := ∀ byte ∈ value.data.toList, ¬ IsControl byte.toNat

theorem Headers.noControls_toUTF8 {text : String} (h : ∀ c ∈ text.toList, ¬ IsControl c.toNat) :
    NoControls text.toUTF8 := by
  intro byte hb
  rw [String.toUTF8_eq_toByteArray, ← String.ofList_toList (s := text), String.toByteArray_ofList, List.utf8Encode,
    List.toList_data_toByteArray] at hb
  obtain ⟨c, hc, hb⟩ := List.mem_flatMap.mp hb
  exact not_isControl_of_mem_utf8EncodeChar (h c hc) hb

/-! ### The text of a mask -/

theorem Unicode.le_of_inRanges {point first last : Nat} {rest : List (Nat × Nat)}
    (h : inRanges point ((first, last) :: rest) = true) : first ≤ point := by
  simp only [inRanges, Bool.and_eq_true, decide_eq_true_eq] at h
  exact h.1

/-- The word characters start with the digits, and the one control character behind them is none. -/
theorem Unicode.not_isControl_of_isWord {c : Char} (h : isWord c = true) : ¬ IsControl c.toNat := by
  rintro (low | delete)
  · have digits : 0x30 ≤ c.toNat := le_of_inRanges h
    omega
  · rw [isWord, delete] at h
    exact absurd h (by decide)

theorem not_isControl_of_isNameChar {c : Char} (h : isNameChar c = true) : ¬ IsControl c.toNat := by
  simp only [isNameChar, Bool.or_eq_true, beq_iff_eq] at h
  rcases h with ((h | rfl) | rfl) | rfl
  · exact Unicode.not_isControl_of_isWord h
  all_goals decide

theorem Mask.not_isControl_of_mem_text {mask : Mask} (hs : mask.Spellable) {c : Char} (hc : c ∈ mask.text.toList) :
    ¬ IsControl c.toNat := by
  have mark {d : Char} (h : d ∈ ['{', '}', ',']) : ¬ IsControl d.toNat := by
    simp only [List.mem_cons, List.not_mem_nil, or_false] at h
    rcases h with rfl | rfl | rfl <;> decide
  rw [Mask.text_toList] at hc
  rcases List.mem_cons.mp hc with rfl | hc
  · exact mark (by decide)
  · rcases List.mem_append.mp hc with hc | hc
    · exact (Token.of_mem_chars (Mask.legible_inside hs.fieldNames).1 hc).elim not_isControl_of_isNameChar mark
    · obtain rfl := List.mem_singleton.mp hc
      exact mark (by decide)

theorem Mask.parseMask_text {mask : Mask} (hs : mask.Spellable) {config : Config}
    (hf : mask.Everywhere fun node => node.skip = config.skip) : config.parseMask (some mask.text) = .ok (some mask) := by
  have some_text : mask.text.isEmpty = false := by
    refine Bool.eq_false_iff.mpr fun h => ?_
    have nil := congrArg String.toList (String.isEmpty_iff.mp h)
    rw [Mask.text_toList] at nil
    cases nil
  rw [Config.parseMask, some_text, if_neg Bool.false_ne_true, Mask.parse_text hs, Mask.withSkip_eq_self_iff.mpr hf, map_ok]

/-! ### The header map -/

/-- Two names are the same up to letter case if their characters are. -/
theorem Headers.toLower_eq_iff {said name : String} :
    said.toLower = name.toLower ↔ said.toList.map Char.toLower = name.toList.map Char.toLower := by
  rw [← String.toList_inj, ← String.toList_map, ← String.toList_map]
  rfl

/-- `First headers name value`: the value is the first that came under the name, be it in another letter case. -/
def Headers.First (headers : Headers) (name : String) (value : ByteArray) : Prop :=
  ∃ before said after, headers = before ++ (said, value) :: after ∧ said.toLower = name.toLower ∧
    ∀ header ∈ before, header.1.toLower ≠ name.toLower

/-- The header map gives the first value under the name of a header, and nothing under another text. -/
theorem Headers.find?_eq_some_iff {headers : Headers} {name : String} {value : ByteArray} :
    headers.find? name = some value ↔ isName name = true ∧ headers.First name value := by
  unfold find?
  by_cases hn : isName name = true
  · rw [if_pos hn, List.lookup_eq_some_iff, and_iff_right hn]
    constructor
    · rintro ⟨before, after, heq, hb⟩
      obtain ⟨first, rest, rfl, rfl, hr⟩ := List.map_eq_append_iff.mp heq
      obtain ⟨⟨said, found⟩, later, rfl, hpair, -⟩ := List.map_eq_cons_iff.mp hr
      obtain ⟨hs, rfl⟩ := Prod.mk.inj hpair
      refine ⟨first, said, later, rfl, hs, fun header hm same => ?_⟩
      have other := hb _ (List.mem_map.mpr ⟨header, hm, rfl⟩)
      simp [same] at other
    · rintro ⟨before, said, after, rfl, hs, hb⟩
      refine ⟨before.map fun header => (header.1.toLower, header.2), after.map fun header => (header.1.toLower, header.2),
        by simp [hs], fun pair hp => ?_⟩
      obtain ⟨header, hm, rfl⟩ := List.mem_map.mp hp
      simpa using (hb header hm).symm
  · simp [hn]

/-- A mask whose nodes all have the configured flag comes through the configured header. The bytes of its text can be
    the value of a header; and a request whose first value under that name they are carries exactly the mask, whatever
    other headers and later values it has. A first value that is no UTF-8 is refused for that. -/
theorem header_carries_mask {config : Config} {headers : Headers} (hn : Headers.isName config.header = true) :
    (∀ mask : Mask, mask.Built → (mask.Everywhere fun node => node.skip = config.skip) →
      Headers.NoControls mask.text.toUTF8 ∧
      (headers.First config.header mask.text.toUTF8 → RequestMask.ofHeaders headers config = .ok ⟨some mask⟩)) ∧
    ∀ value : ByteArray, ¬ value.IsValidUTF8 → headers.First config.header value →
      RequestMask.ofHeaders headers config = .error .notUtf8 := by
  constructor
  · intro mask hb hf
    refine ⟨Headers.noControls_toUTF8 fun c hc => Mask.not_isControl_of_mem_text hb.spellable hc, fun first => ?_⟩
    rw [RequestMask.ofHeaders, Headers.find?_eq_some_iff.mpr ⟨hn, first⟩]
    simp only [fromUTF8?_toUTF8, Mask.parseMask_text hb.spellable hf, map_ok]
  · intro value hv first
    have unread : String.fromUTF8? value = none := dif_neg hv
    rw [RequestMask.ofHeaders, Headers.find?_eq_some_iff.mpr ⟨hn, first⟩]
    simp only [unread]

/-- The mask `prénom,b{*}`, with the flag set throughout, under the header `X-Mask`. Another header comes before it, and a
    second value, which is no UTF-8, behind it under the same name. -/
theorem header_carries_mask_unicode :
    let config : Config := ⟨"X-Mask", true⟩
    let mask : Mask := .mk true [("prénom", .selected), ("b", .nested (.mk true [("*", .selected)]))]
    let stray : ByteArray := ⟨#[0xff]⟩
    let headers : Headers := [("accept", stray), ("x-mASK", mask.text.toUTF8), ("x-mask", stray)]
    Headers.isName config.header = true ∧ mask.Built ∧ (mask.Everywhere fun node => node.skip = config.skip) ∧
      headers.First config.header mask.text.toUTF8 ∧ RequestMask.ofHeaders headers config = .ok ⟨some mask⟩ ∧
      ¬ stray.IsValidUTF8 ∧ RequestMask.ofHeaders [("x-mask", stray)] config = .error .notUtf8 := by
  intro config mask stray headers
  have hn : Headers.isName config.header = true := by decide
  have hb : mask.Built := .parse (show Mask.parse "prénom,b\x7b*\x7d" true = .ok mask by decide +kernel)
  have hf : mask.Everywhere fun node => node.skip = config.skip := by decide
  have first : headers.First config.header mask.text.toUTF8 :=
    ⟨[("accept", stray)], "x-mASK", [("x-mask", stray)], rfl, Headers.toLower_eq_iff.mpr (by decide),
      List.forall_mem_singleton.mpr (mt Headers.toLower_eq_iff.mp (by decide))⟩
  have alone : Headers.First [("x-mask", stray)] config.header stray :=
    ⟨[], "x-mask", [], rfl, Headers.toLower_eq_iff.mpr (by decide), List.forall_mem_nil _⟩
  have hv : ¬ stray.IsValidUTF8 := by decide +kernel
  exact ⟨hn, hb, hf, first, ((header_carries_mask hn).1 mask hb hf).2 first, hv, (header_carries_mask hn).2 stray hv alone⟩

end FieldMask
