import FieldMask.Proofs.Reading
import Mathlib.Data.List.Induction

/-! The grammar of mask texts and what the reader makes of it. A group is a list of items, each a field or a
    field with a group of its own; commas between items are optional, and one may trail. The reader accepts
    exactly the token lists that the grammar derives, and the mask it returns is the value of the items.

    Accepting goes by the derivation: the tokens of an item or of items have one effect on any reading.
    Conversely, the tokens read so far always split into half-read groups (`Open`), one for each frame. -/

namespace FieldMask

/-- An item of a group: a field, or a field with a group of its own. -/
inductive Item where
  | field (name : String)
  | group (name : String) (items : List Item)

/-- At most one comma. -/
def OptionalComma (tokens : List Token) : Prop := tokens = [] ∨ tokens = [.comma]

mutual

/-- The tokens that spell one item. -/
inductive ItemTokens : List Token → Item → Prop
  | field (name : String) : ItemTokens [.name name] (.field name)
  | group {tokens : List Token} {items : List Item} (name : String) :
      GroupTokens tokens items → ItemTokens (.name name :: .opening :: (tokens ++ [.closing])) (.group name items)

/-- The tokens that spell items, at least one, with a comma or nothing between two of them. -/
inductive ItemsTokens : List Token → List Item → Prop
  | single {tokens : List Token} {item : Item} : ItemTokens tokens item → ItemsTokens tokens [item]
  | cons {tokens separator rest : List Token} {item : Item} {items : List Item} :
      ItemTokens tokens item → OptionalComma separator → ItemsTokens rest items →
      ItemsTokens (tokens ++ (separator ++ rest)) (item :: items)

/-- The tokens that spell a group: none, or those of its items and perhaps a comma. -/
inductive GroupTokens : List Token → List Item → Prop
  | empty : GroupTokens [] []
  | items {tokens trailing : List Token} {items : List Item} :
      ItemsTokens tokens items → OptionalComma trailing → GroupTokens (tokens ++ trailing) items

end

namespace Item

/-- The field of an item. -/
def name : Item → String
  | .field name => name
  | .group name _ => name

mutual

/-- What an item says about its field. -/
def entry (skip : Bool) : Item → Entry
  | .field _ => .selected
  | .group _ items => .nested (addAll skip (.empty skip) items)

/-- Sets the fields of items in a mask, from left to right. -/
def addAll (skip : Bool) (mask : Mask) : List Item → Mask
  | [] => mask
  | item :: rest => addAll skip (mask.insert item.name (item.entry skip)) rest

end

/-- The value of the items of a group. -/
def mask (skip : Bool) (items : List Item) : Mask := addAll skip (.empty skip) items

variable {skip : Bool}

theorem addAll_append (mask : Mask) (items more : List Item) :
    addAll skip mask (items ++ more) = addAll skip (addAll skip mask items) more := by
  induction items generalizing mask with
  | nil => rfl
  | cons item rest ih => exact ih _

@[simp] theorem mask_nil : mask skip [] = .empty skip := rfl

theorem mask_append_singleton (items : List Item) (item : Item) :
    mask skip (items ++ [item]) = (mask skip items).insert item.name (item.entry skip) :=
  addAll_append _ items [item]

/-- Each field keeps the place of the first item that names it. -/
theorem names_mask (items : List Item) : (mask skip items).names = (items.map name).eraseDups := by
  induction items using List.reverseRecOn with
  | nil => rfl
  | append_singleton items item ih =>
    have hn : ((mask skip items).insert item.name (item.entry skip)).names =
        if item.name ∈ (mask skip items).names then (mask skip items).names
        else (mask skip items).names ++ [item.name] :=
      Fields.names_insert (mask skip items).entries item.name (item.entry skip)
    rw [mask_append_singleton, hn, ih, List.map_append, List.eraseDups_append]
    by_cases h : item.name ∈ items.map name <;> simp [h, List.removeAll, List.eraseDups_cons, -List.mem_map]

/-- Each field has the entry of the last item that names it. -/
theorem find?_mask (items : List Item) (field : String) :
    (mask skip items).find? field = (items.reverse.find? fun item => item.name == field).map (entry skip) := by
  induction items using List.reverseRecOn with
  | nil => rfl
  | append_singleton items item ih =>
    have hf : ((mask skip items).insert item.name (item.entry skip)).find? field =
        if item.name = field then some (item.entry skip) else (mask skip items).find? field :=
      Fields.find?_insert (mask skip items).entries item.name field (item.entry skip)
    rw [mask_append_singleton, hf, ih, List.reverse_append]
    by_cases h : item.name = field <;> simp [h]

end Item

/-! ### What the grammar derives is accepted -/

mutual

theorem ItemTokens.read (skip : Bool) {tokens : List Token} {item : Item} :
    ItemTokens tokens item → ∀ position group around, ∃ after : Position, after.AllowsComma ∧
      tokens.foldlM (Reading.step skip) ⟨position, group, around⟩ =
        .ok ⟨after, group.insert item.name (item.entry skip), around⟩
  | .field name, position, group, around => ⟨.afterName name, rfl, by simp [Item.name, Item.entry]⟩
  | .group name h, position, group, around => by
    obtain ⟨after, hr⟩ := h.read skip (.empty skip) (⟨group.insert name .selected, name⟩ :: around)
    refine ⟨.afterGroup, rfl, ?_⟩
    rw [List.foldlM_cons, Reading.step_name, ok_bind, List.foldlM_cons, Reading.step_opening, ok_bind,
      List.foldlM_append, hr, ok_bind, List.foldlM_cons, Reading.step_closing_cons]
    -- The field was selected before its group was known; the group takes its place.
    simp only [Mask.insert, Mask.entries_mk, Mask.skip_mk, Fields.insert_insert]
    rfl

theorem ItemsTokens.read (skip : Bool) {tokens : List Token} {items : List Item} :
    ItemsTokens tokens items → ∀ position group around, ∃ after : Position, after.AllowsComma ∧
      tokens.foldlM (Reading.step skip) ⟨position, group, around⟩ = .ok ⟨after, Item.addAll skip group items, around⟩
  | .single h, position, group, around => h.read skip position group around
  | .cons h hsep hrest, position, group, around => by
    obtain ⟨middle, hm, hr⟩ := h.read skip position group around
    rw [List.foldlM_append, hr, ok_bind]
    rcases hsep with rfl | rfl
    · exact hrest.read skip middle _ around
    · obtain ⟨after, ha, hr'⟩ := hrest.read skip .afterComma _ around
      refine ⟨after, ha, ?_⟩
      rw [List.singleton_append, List.foldlM_cons, Reading.step_comma hm, ok_bind]
      exact hr'

theorem GroupTokens.read (skip : Bool) {tokens : List Token} {items : List Item} :
    GroupTokens tokens items → ∀ group around, ∃ after : Position,
      tokens.foldlM (Reading.step skip) ⟨.groupStart, group, around⟩ =
        .ok ⟨after, Item.addAll skip group items, around⟩
  | .empty, group, around => ⟨.groupStart, rfl⟩
  | .items h htrail, group, around => by
    obtain ⟨after, ha, hr⟩ := h.read skip .groupStart group around
    rw [List.foldlM_append, hr, ok_bind]
    rcases htrail with rfl | rfl
    · exact ⟨after, rfl⟩
    · exact ⟨.afterComma, by rw [List.foldlM_cons, Reading.step_comma ha]; rfl⟩

end

theorem GroupTokens.ofTokens {skip : Bool} {tokens : List Token} {items : List Item} (h : GroupTokens tokens items) :
    Mask.ofTokens skip tokens = .ok (Item.mask skip items) := by
  obtain ⟨after, hr⟩ := h.read skip (.empty skip) []
  unfold Mask.ofTokens Reading.start
  rw [hr]
  rfl

/-! ### What is accepted is derived -/

theorem ItemsTokens.append {tokens separator more : List Token} {items : List Item} {item : Item}
    (hsep : OptionalComma separator) (hitem : ItemTokens more item) :
    ItemsTokens tokens items → ItemsTokens (tokens ++ (separator ++ more)) (items ++ [item])
  | .single h => .cons h hsep (.single hitem)
  | .cons h hs hrest => by
    have ih := hrest.append hsep hitem
    simp only [List.append_assoc, List.cons_append]
    exact .cons h hs ih

theorem GroupTokens.append {tokens more : List Token} {items : List Item} {item : Item}
    (h : GroupTokens tokens items) (hitem : ItemTokens more item) : ItemsTokens (tokens ++ more) (items ++ [item]) := by
  cases h with
  | empty => exact .single hitem
  | items hitems htrail =>
    rw [List.append_assoc]
    exact hitems.append htrail hitem

/-- The tokens that were read of a group, up to a position, and the mask that was made of them. -/
def HalfRead (skip : Bool) (tokens : List Token) (group : Mask) : Position → Prop
  | .groupStart => tokens = [] ∧ group = .empty skip
  | .afterName name => ∃ before items, tokens = before ++ [.name name] ∧ GroupTokens before items ∧
      group = Item.mask skip (items ++ [.field name])
  | .afterGroup => ∃ items, ItemsTokens tokens items ∧ group = Item.mask skip items
  | .afterComma => ∃ before items, tokens = before ++ [.comma] ∧ ItemsTokens before items ∧
      group = Item.mask skip items

/-- The tokens that were read split into the half-read groups of the frames and of the current group. -/
inductive Open (skip : Bool) : List Token → Reading → Prop
  | top {tokens : List Token} {position : Position} {group : Mask} :
      HalfRead skip tokens group position → Open skip tokens ⟨position, group, []⟩
  | inner {before tokens : List Token} {position : Position} {outer group : Mask} {name : String} {around : List Frame} :
      Open skip before ⟨.afterName name, outer, around⟩ → HalfRead skip tokens group position →
      Open skip (before ++ .opening :: tokens) ⟨position, group, ⟨outer, name⟩ :: around⟩

section
variable {skip : Bool} {tokens : List Token} {position : Position} {group : Mask} {around : List Frame}

/-- At any position the group could end. -/
theorem HalfRead.groupTokens (h : HalfRead skip tokens group position) :
    ∃ items, GroupTokens tokens items ∧ group = Item.mask skip items := by
  cases position with
  | groupStart =>
    obtain ⟨rfl, rfl⟩ := h
    exact ⟨[], .empty, rfl⟩
  | afterName name =>
    obtain ⟨before, items, rfl, hb, rfl⟩ := h
    have hi := GroupTokens.items (hb.append (.field name)) (Or.inl rfl)
    rw [List.append_nil] at hi
    exact ⟨_, hi, rfl⟩
  | afterGroup =>
    obtain ⟨items, hi, rfl⟩ := h
    have hi := GroupTokens.items hi (Or.inl rfl)
    rw [List.append_nil] at hi
    exact ⟨items, hi, rfl⟩
  | afterComma =>
    obtain ⟨before, items, rfl, hb, rfl⟩ := h
    exact ⟨items, .items hb (Or.inr rfl), rfl⟩

/-- Tokens that belong to the current group leave the groups around it as they are. -/
theorem Open.extend {more : List Token} {after : Position} {filled : Mask} (h : Open skip tokens ⟨position, group, around⟩)
    (hr : ∀ inner, HalfRead skip inner group position → HalfRead skip (inner ++ more) filled after) :
    Open skip (tokens ++ more) ⟨after, filled, around⟩ := by
  cases h with
  | top hh => exact .top (hr _ hh)
  | inner houter hh =>
    rw [List.append_assoc, List.cons_append]
    exact .inner houter (hr _ hh)

theorem Open.step {reading after : Reading} {token : Token} (h : Open skip tokens reading)
    (hs : Reading.step skip reading token = .ok after) : Open skip (tokens ++ [token]) after := by
  obtain ⟨position, group, around⟩ := reading
  rcases Reading.step_cases hs with ⟨name, rfl, rfl⟩ | ⟨name, rfl, hp, rfl⟩ | ⟨frame, outer, rfl, ha, rfl⟩ |
    ⟨rfl, hp, rfl⟩
  · refine h.extend fun inner hh => ?_
    obtain ⟨items, hg, rfl⟩ := hh.groupTokens
    exact ⟨inner, items, rfl, hg, (Item.mask_append_singleton items (.field name)).symm⟩
  · obtain rfl : position = .afterName name := hp
    exact .inner h ⟨rfl, rfl⟩
  · obtain rfl : around = frame :: outer := ha
    cases h with
    | @inner before inner _ outerGroup _ name _ houter hh =>
      obtain ⟨items, hg, rfl⟩ := hh.groupTokens
      rw [List.append_assoc]
      refine houter.extend fun half hhalf => ?_
      obtain ⟨start, former, rfl, hstart, rfl⟩ := hhalf
      -- The name before the bracket and the closed group become one item.
      refine ⟨former ++ [.group name items], ?_, ?_⟩
      · have hi := hstart.append (.group name hg)
        simpa using hi
      · rw [Item.mask_append_singleton, Item.mask_append_singleton]
        simp only [Mask.insert, Mask.entries_mk, Mask.skip_mk, Item.name, Fields.insert_insert]
        rfl
  · refine h.extend fun inner hh => ?_
    cases position with
    | groupStart => cases hp
    | afterComma => cases hp
    | afterName name =>
      obtain ⟨before, items, rfl, hb, rfl⟩ := hh
      exact ⟨_, _, rfl, hb.append (.field name), rfl⟩
    | afterGroup =>
      obtain ⟨items, hi, rfl⟩ := hh
      exact ⟨_, _, rfl, hi, rfl⟩

theorem Open.run {reading after : Reading} {more : List Token} (h : Open skip tokens reading)
    (hr : more.foldlM (Reading.step skip) reading = .ok after) : Open skip (tokens ++ more) after := by
  induction more generalizing tokens reading with
  | nil =>
    obtain rfl := Except.ok.inj hr
    rwa [List.append_nil]
  | cons token rest ih =>
    rw [List.foldlM_cons] at hr
    obtain ⟨middle, hs, hrest⟩ := bind_eq_ok_iff.mp hr
    have := ih (h.step hs) hrest
    rwa [List.append_assoc, List.singleton_append] at this

end

theorem Mask.ofTokens_eq_ok_iff {skip : Bool} {tokens : List Token} {mask : Mask} :
    Mask.ofTokens skip tokens = .ok mask ↔ ∃ items, GroupTokens tokens items ∧ mask = Item.mask skip items := by
  constructor
  · intro h
    obtain ⟨reading, hr, hf⟩ := bind_eq_ok_iff.mp h
    have hstart : Open skip [] (Reading.start skip) := .top ⟨rfl, rfl⟩
    have hopen := hstart.run hr
    rw [List.nil_append] at hopen
    cases hopen with
    | top hh =>
      obtain rfl := Except.ok.inj hf
      exact hh.groupTokens
    | inner _ _ => cases hf
  · rintro ⟨items, hg, rfl⟩
    exact hg.ofTokens

/-- Reading a text gives the value of the items that its tokens spell, and nothing else is accepted. In the
    value of items a field stands where it was first named and has the entry it was last given, all nodes
    have the given skip flag, and the flag changes neither what is accepted nor why a text is refused. -/
theorem parse_refines_grammar (text : String) (skip : Bool) :
    (∀ mask, Mask.parse text skip = .ok mask ↔ ∃ cleaned items, clean text = .ok cleaned ∧
      GroupTokens (tokenize cleaned) items ∧ mask = Item.mask skip items) ∧
    (∀ items, (Item.mask skip items).names = (items.map Item.name).eraseDups ∧
      ∀ field, (Item.mask skip items).find? field =
        (items.reverse.find? fun item => item.name == field).map (Item.entry skip)) ∧
    (∀ mask node, Mask.parse text skip = .ok mask → mask.HasNode node → node.skip = skip) ∧
    ∀ other, Mask.parse text other = Mask.withSkip other <$> Mask.parse text skip := by
  refine ⟨fun mask => ?_, fun items => ⟨Item.names_mask items, Item.find?_mask items⟩, fun mask node hm hn => ?_,
    Mask.parse_withSkip text skip⟩
  · unfold Mask.parse
    rw [bind_eq_ok_iff]
    constructor
    · rintro ⟨cleaned, hc, ht⟩
      obtain ⟨items, hg, rfl⟩ := Mask.ofTokens_eq_ok_iff.mp ht
      exact ⟨cleaned, items, hc, hg, rfl⟩
    · rintro ⟨cleaned, items, hc, hg, rfl⟩
      exact ⟨cleaned, hc, hg.ofTokens⟩
  · -- The mask is itself with all flags replaced by the flag it was read with.
    have hself := Mask.parse_withSkip text skip skip
    rw [hm, map_ok] at hself
    rw [Except.ok.inj hself] at hn
    exact Mask.skip_of_hasNode_withSkip hn

end FieldMask
