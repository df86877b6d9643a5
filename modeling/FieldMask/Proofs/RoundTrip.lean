import FieldMask.Mask.Text
import FieldMask.Proofs.Grammar
import FieldMask.Proofs.Spelling

/-! The text of a mask reads back. Between its brackets the text spells the entries as items, and the value
    of these items is the mask itself, with the skip flag it is read with. So texts tell masks apart up to
    their flags, and a mask that nests one of another flag is not what its text reads as. -/

namespace FieldMask

theorem eq_of_map_eq {α β : Type _} {f : α → β} :
    ∀ {xs ys : List α}, xs.map f = ys.map f → (∀ x ∈ xs, ∀ y ∈ ys, f x = f y → x = y) → xs = ys
  | [], [], _, _ => rfl
  | x :: xs, y :: ys, h, hinj => by
    obtain ⟨hhead, htail⟩ := List.cons.inj h
    rw [hinj x List.mem_cons_self y List.mem_cons_self hhead, eq_of_map_eq htail fun x hx y hy =>
      hinj x (List.mem_cons_of_mem _ hx) y (List.mem_cons_of_mem _ hy)]

mutual

/-- The items that the text of a mask spells. -/
def Mask.items : Mask → List Item
  | .mk _ entries => Mask.entryItems entries

/-- The items that the texts of the entries spell. -/
def Mask.entryItems : List (String × Entry) → List Item
  | [] => []
  | (name, entry) :: rest => entry.item name :: Mask.entryItems rest

/-- The item that an entry of the given name spells. -/
def Entry.item (name : String) : Entry → Item
  | .selected => .field name
  | .nested mask => .group name mask.items

end

namespace Mask

/-- The tokens between the brackets of a mask. -/
def inside (mask : Mask) : List Token := [Token.comma].intercalate (entryTokens mask.entries)

theorem tokens_eq (mask : Mask) : mask.tokens = .opening :: (mask.inside ++ [.closing]) := by
  cases mask
  rfl

/-! ### The items -/

theorem itemsTokens_of_entries {entries : List (String × Entry)} (hne : entries ≠ [])
    (h : ∀ name inner, (name, .nested inner) ∈ entries → GroupTokens inner.inside inner.items) :
    ItemsTokens ([Token.comma].intercalate (entryTokens entries)) (entryItems entries) := by
  induction entries with
  | nil => exact absurd rfl hne
  | cons head rest ih =>
    obtain ⟨name, entry⟩ := head
    have hitem : ItemTokens (.name name :: entry.tokens) (entry.item name) := by
      cases entry with
      | selected => exact .field name
      | nested inner =>
        have hg := h name inner List.mem_cons_self
        rw [Entry.tokens, tokens_eq]
        exact .group name hg
    cases rest with
    | nil =>
      rw [entryTokens, entryTokens, List.intercalate_singleton]
      exact .single hitem
    | cons next rest =>
      have ih := ih (by simp) fun name inner hm => h name inner (List.mem_cons_of_mem _ hm)
      simp only [entryTokens, List.intercalate_cons_cons, List.append_assoc] at ih ⊢
      exact .cons hitem (Or.inr rfl) ih

theorem groupTokens_inside (mask : Mask) : GroupTokens mask.inside mask.items := by
  induction mask using nodeInduction with
  | step skip entries ih =>
    cases entries with
    | nil => exact .empty
    | cons head rest =>
      have := GroupTokens.items (itemsTokens_of_entries (by simp) ih) (Or.inl rfl)
      rwa [List.append_nil] at this

theorem addAll_entryItems {skip : Bool} {mask : Mask} {entries : List (String × Entry)}
    (hd : (mask.names ++ Fields.names entries).Nodup)
    (h : ∀ name inner, (name, .nested inner) ∈ entries → Item.mask skip inner.items = inner.withSkip skip) :
    Item.addAll skip mask (entryItems entries) = .mk mask.skip (mask.entries ++ entriesWithSkip skip entries) := by
  induction entries generalizing mask with
  | nil =>
    cases mask
    simp [entryItems, entriesWithSkip, Item.addAll]
  | cons head rest ih =>
    obtain ⟨name, entry⟩ := head
    have hname : (entry.item name).name = name := by cases entry <;> rfl
    have hentry : (entry.item name).entry skip = entry.withSkip skip := by
      cases entry with
      | selected => rfl
      | nested inner => exact congrArg Entry.nested (h name inner List.mem_cons_self)
    have hfresh : name ∉ mask.names := fun hm =>
      (List.nodup_append.mp hd).2.2 name hm name (by simp [Fields.names]) rfl
    have hins : mask.insert name (entry.withSkip skip) = .mk mask.skip (mask.entries ++ [(name, entry.withSkip skip)]) :=
      congrArg (Mask.mk mask.skip) (Fields.insert_eq_append hfresh _)
    rw [entryItems, Item.addAll, hname, hentry, hins, ih]
    · simp [entriesWithSkip]
    · simpa [names, Fields.names] using hd
    · exact fun name inner hm => h name inner (List.mem_cons_of_mem _ hm)

/-- The items of a mask that can be spelled are worth the mask, up to the skip flags. -/
theorem mask_items {skip : Bool} {mask : Mask} (hs : mask.Spellable) : Item.mask skip mask.items = mask.withSkip skip := by
  induction mask using nodeInduction with
  | step old entries ih =>
    have hd : ((empty skip).names ++ Fields.names entries).Nodup := hs.nodup
    exact addAll_entryItems hd fun name inner hm => ih name inner hm (hs.inner hm)

/-! ### The tokens -/

end Mask

theorem NamesApart.join {tokens more : List Token} {mark : Token} (hm : mark.isName = false) (ht : NamesApart tokens)
    (hr : NamesApart more) : NamesApart (tokens ++ mark :: more) := by
  refine List.isChain_append.mpr ⟨ht, List.isChain_cons.mpr ⟨fun next _ => ?_, hr⟩, fun last _ first hf => ?_⟩
  · rw [hm, Bool.false_and]
  · obtain rfl : mark = first := Option.some.inj hf
    rw [hm, Bool.and_false]

/-- Tokens that read back from their text. -/
def Legible (tokens : List Token) : Prop := SpellableNames tokens ∧ NamesApart tokens

theorem Legible.join {tokens more : List Token} {mark : Token} (hm : mark.isName = false) (ht : Legible tokens)
    (hr : Legible more) : Legible (tokens ++ mark :: more) := by
  refine ⟨ht.1.append fun name hn => ?_, ht.2.join hm hr.2⟩
  rcases List.mem_cons.mp hn with rfl | hn
  · cases hm
  · exact hr.1 name hn

theorem Legible.nil : Legible [] := ⟨by simp [SpellableNames], .nil⟩

theorem Legible.name {name : String} (h : isFieldName name = true) : Legible [.name name] :=
  ⟨fun _ hm => Token.name.inj (List.mem_singleton.mp hm) ▸ h, .singleton _⟩

namespace Mask

theorem legible_entryTokens {entries : List (String × Entry)} (hn : ∀ name ∈ Fields.names entries, isFieldName name = true)
    (h : ∀ name inner, (name, .nested inner) ∈ entries → Legible inner.inside) :
    Legible ([Token.comma].intercalate (entryTokens entries)) := by
  induction entries with
  | nil => exact .nil
  | cons head rest ih =>
    obtain ⟨name, entry⟩ := head
    have hname : Legible [.name name] := .name (hn name (by simp [Fields.names]))
    have hitem : Legible (.name name :: entry.tokens) := by
      cases entry with
      | selected => exact hname
      | nested inner =>
        rw [Entry.tokens, tokens_eq]
        exact hname.join rfl ((h name inner List.mem_cons_self).join rfl .nil)
    cases rest with
    | nil =>
      rw [entryTokens, entryTokens, List.intercalate_singleton]
      exact hitem
    | cons next rest =>
      have ih := ih (fun name hm => hn name (List.mem_cons_of_mem _ hm))
        fun name inner hm => h name inner (List.mem_cons_of_mem _ hm)
      simp only [entryTokens, List.intercalate_cons_cons, List.append_assoc] at ih ⊢
      exact hitem.join rfl ih

theorem legible_inside {mask : Mask} (hn : mask.Everywhere fun node => ∀ name ∈ node.names, isFieldName name = true) :
    Legible mask.inside := by
  induction mask using nodeInduction with
  | step skip entries ih =>
    exact legible_entryTokens hn.root fun name inner hm => ih name inner hm (hn.below hm)

/-! ### The text -/

theorem text_toList (mask : Mask) : mask.text.toList = '{' :: (mask.inside.flatMap Token.chars ++ ['}']) := by
  rw [text, tokens_eq]
  simp [Token.chars]

theorem newline_not_mem_chars {tokens : List Token} (h : SpellableNames tokens) : '\n' ∉ tokens.flatMap Token.chars :=
  fun hm => absurd (Token.of_mem_chars h hm) (by decide)

theorem trim_eq_self {first last : Char} {middle : List Char} (hf : Unicode.isSpace first = false)
    (hl : Unicode.isSpace last = false) : trim (first :: (middle ++ [last])) = first :: (middle ++ [last]) := by
  have hr : (first :: (middle ++ [last])).reverse = last :: (middle.reverse ++ [first]) := by simp
  rw [trim, List.dropWhile_cons_of_neg (by simp [hf]), hr, List.dropWhile_cons_of_neg (by simp [hl]), ← hr,
    List.reverse_reverse]

theorem clean_text {mask : Mask} (hn : mask.Everywhere fun node => ∀ name ∈ node.names, isFieldName name = true) :
    clean mask.text = .ok (String.ofList (mask.inside.flatMap Token.chars)) := by
  have hb : mask.text.toList.filter (· ≠ '\n') = mask.text.toList := by
    refine List.filter_eq_self.mpr fun c hc => decide_eq_true fun heq => ?_
    rw [heq, text_toList] at hc
    rcases List.mem_cons.mp hc with hc | hc
    · cases hc
    · rcases List.mem_append.mp hc with hc | hc
      · exact newline_not_mem_chars (legible_inside hn).1 hc
      · exact absurd hc (by decide)
  rw [clean, hb, text_toList, trim_eq_self (by decide) (by decide)]
  simp [stripBrackets]

/-- Between the brackets of a text with sound names stand the items of the mask, also where a name comes again. -/
theorem parse_text_eq_items {mask : Mask} (hn : mask.Everywhere fun node => ∀ name ∈ node.names, isFieldName name = true)
    (skip : Bool) : parse mask.text skip = .ok (Item.mask skip mask.items) := by
  have hl := legible_inside hn
  rw [parse, clean_text hn, ok_bind, tokenize, String.toList_ofList, Token.scan_flatMap_chars hl.1 hl.2,
    (groupTokens_inside mask).ofTokens]

theorem parse_text {mask : Mask} (hs : mask.Spellable) (skip : Bool) :
    parse mask.text skip = .ok (mask.withSkip skip) := by
  rw [parse_text_eq_items hs.fieldNames, mask_items hs]

/-! ### Texts tell masks apart -/

theorem skipAt?_cons {mask inner : Mask} {name : String} (hf : mask.find? name = some (.nested inner))
    (path : List String) : mask.skipAt? (name :: path) = inner.skipAt? path := by
  rw [skipAt?, hf]

/-- Masks that agree when their flags are replaced, and have the same flags at every node, are equal. -/
theorem eq_of_withSkip_eq {skip : Bool} {mask other : Mask} (hm : mask.Spellable) (ho : other.Spellable)
    (hw : mask.withSkip skip = other.withSkip skip) (hs : ∀ path, mask.skipAt? path = other.skipAt? path) :
    mask = other := by
  induction mask using nodeInduction generalizing other with
  | step flag entries ih =>
    obtain ⟨flag', entries'⟩ := other
    obtain rfl : flag = flag' := Option.some.inj (hs [])
    refine congrArg (Mask.mk flag) ?_
    have hmap := congrArg Mask.entries hw
    rw [entries_withSkip, entries_withSkip] at hmap
    refine eq_of_map_eq hmap fun ⟨name, entry⟩ he ⟨name', entry'⟩ he' heq => ?_
    obtain ⟨rfl, heq⟩ := Prod.mk.inj heq
    cases entry with
    | selected =>
      cases entry' with
      | selected => rfl
      | nested inner => cases heq
    | nested inner =>
      cases entry' with
      | selected => cases heq
      | nested inner' =>
        have hf : (Mask.mk flag entries).find? name = some (.nested inner) := Fields.find?_of_mem hm.nodup he
        have hf' : (Mask.mk flag entries').find? name = some (.nested inner') := Fields.find?_of_mem ho.nodup he'
        have : inner = inner' := ih name inner he (hm.inner he) (ho.inner he') (Entry.nested.inj heq) fun path => by
          rw [← skipAt?_cons hf, ← skipAt?_cons hf']
          exact hs (name :: path)
        rw [this]

end Mask

/-- The text of a mask reads back as the mask with the given flag at every node, however the mask was built.
    So two masks are equal when their texts are and the nodes at the same place have the same flag. -/
theorem built_text_faithful {mask : Mask} (h : mask.Built) :
    (∀ skip, Mask.parse mask.text skip = .ok (mask.withSkip skip)) ∧
    ∀ other, other.Built →
      (mask.beq other = true ↔ mask.text = other.text ∧ ∀ path, mask.skipAt? path = other.skipAt? path) := by
  refine ⟨Mask.parse_text h.spellable, fun other ho => ?_⟩
  rw [Mask.beq_iff]
  constructor
  · rintro rfl
    exact ⟨rfl, fun _ => rfl⟩
  · rintro ⟨htext, hskip⟩
    have hm := Mask.parse_text h.spellable false
    rw [htext, Mask.parse_text ho.spellable] at hm
    exact Mask.eq_of_withSkip_eq h.spellable ho.spellable (Except.ok.inj hm).symm hskip

theorem built_text_faithful_grafted :
    let inner : Mask := .mk false [("c", .nested (.mk false [])), ("*", .selected)]
    let mask : Mask := .mk true [("prénom", .selected), ("b", .nested inner)]
    mask.Built ∧ (∀ skip, Mask.parse mask.text skip = .ok (mask.withSkip skip)) ∧
      (mask.beq (mask.withSkip false) = true ↔
        mask.text = (mask.withSkip false).text ∧ ∀ path, mask.skipAt? path = (mask.withSkip false).skipAt? path) := by
  intro inner mask
  have hi : Mask.parse "c\x7b\x7d,*" false = .ok inner := by decide +kernel
  have hs : (Mask.empty true).select "prénom" = .ok (.mk true [("prénom", .selected)]) := by decide +kernel
  have hn : (Mask.mk true [("prénom", .selected)]).nest "b" inner = .ok mask := by decide +kernel
  have hb : mask.Built := .nest (.select (.empty true) hs) (.parse hi) hn
  have hp : Mask.parse "prénom,b\x7bc\x7b\x7d,*\x7d" false = .ok (mask.withSkip false) := by decide +kernel
  exact ⟨hb, (built_text_faithful hb).1, (built_text_faithful hb).2 _ (.parse hp)⟩

/-- However a mask was built, its text can be read with the flag of the mask, and gives the mask again exactly
    if all of its nodes have that flag. -/
theorem built_reread {mask : Mask} (h : mask.Built) :
    ∃ reread, Mask.parse mask.text mask.skip = .ok reread ∧
      (reread.beq mask = true ↔ mask.Everywhere fun node => node.skip = mask.skip) := by
  refine ⟨mask.withSkip mask.skip, Mask.parse_text h.spellable mask.skip, ?_⟩
  rw [Mask.beq_iff]
  exact Mask.withSkip_eq_self_iff

/-- The mask `author{name}` with the same flag at both nodes. -/
theorem built_reread_one_flag :
    let mask : Mask := .mk true [("author", .nested (.mk true [("name", .selected)]))]
    mask.Built ∧ ∃ reread, Mask.parse mask.text mask.skip = .ok reread ∧
      (reread.beq mask = true ↔ mask.Everywhere fun node => node.skip = mask.skip) := by
  intro mask
  have hb : mask.Built := .parse (show Mask.parse "author\x7bname\x7d" true = .ok mask by decide +kernel)
  exact ⟨hb, built_reread hb⟩

/-- A mask that keeps null for missing fields and nests one that leaves them out reads back without the
    flag of the inner mask. -/
theorem reread_loses_inner_flag :
    let inner : Mask := .mk true [("name", .selected)]
    let mask : Mask := .mk false [("author", .nested inner)]
    mask.Built ∧ ∃ reread, Mask.parse mask.text mask.skip = .ok reread ∧ reread.beq mask = false := by
  intro inner mask
  have hs : (Mask.empty true).select "name" = .ok inner := by decide +kernel
  have hn : (Mask.empty false).nest "author" inner = .ok mask := by decide +kernel
  have hp : Mask.parse mask.text mask.skip = .ok (mask.withSkip false) := by decide +kernel
  exact ⟨.nest (.empty false) (.select (.empty true) hs) hn, mask.withSkip false, hp, by decide⟩

end FieldMask
