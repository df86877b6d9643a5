import FieldMask.Proofs.Misfit
import FieldMask.Proofs.Succession

/-! What the skip flags of a mask decide. A mask is compared with itself, once with all flags set and once with all
    of them cleared. Both ways it is refused for the same reasons, and lets out the same but for members that are
    null. What happens at one entry is said once, in `Entry.Flagged`.

    Without the wildcard more can be said: with the flags set just those members are gone that the mask fills in
    without them (`Mask.unfilled`). With the wildcard a null that was left out may come back behind the others.

    The data are as a parser leaves them: no object has two members of one name (`Json.distinct`). -/

namespace FieldMask

namespace Json

mutual

/-- Whether no object in the value, at any depth, has two members of one name. -/
def distinct : Json → Bool
  | .arr items => distinctItems items
  | .obj members => decide (Fields.names members).Nodup && distinctMembers members
  | .null | .bool _ | .num _ | .str _ => true

/-- Whether this is so for each of the items. -/
def distinctItems : List Json → Bool
  | [] => true
  | item :: rest => item.distinct && distinctItems rest

/-- Whether this is so for the value of each member. -/
def distinctMembers : List (String × Json) → Bool
  | [] => true
  | (_, value) :: rest => value.distinct && distinctMembers rest

end

end Json

/-- Whether a value is missing for an entry, so that it lets out null or nothing: a field taken whole is to be there,
    and a nested one is not to be null either. -/
def Entry.isMissing : Entry → Option Json → Bool
  | .selected, value => value.isNone
  | .nested _, value => (solid value).isNone

/-- Whether a mask without flags has to fill in null under a name that it has an entry for. -/
def Mask.fillsIn (mask : Mask) (record : Fields Json) (name : String) : Bool :=
  (mask.find? name).any fun entry => entry.isMissing (Fields.find? record name)

mutual

/-- What came out of some data without the members that the mask filled in: in each of the records that the mask
    filters, those under a name whose value was missing. Every other member stays, and so does its value but for what
    was filled in below a nested entry. -/
def Mask.unfilled (mask : Mask) : Json → Json → Json
  | .arr items, .arr kept => .arr (Mask.unfilledItems mask items kept)
  | .obj record, .obj members => .obj (Mask.unfilledMembers mask record members)
  | _, out => out
termination_by structural _ out => out

/-- The items that came out, each without what was filled in. -/
def Mask.unfilledItems (mask : Mask) : List Json → List Json → List Json
  | item :: items, out :: kept => mask.unfilled item out :: Mask.unfilledItems mask items kept
  | _, kept => kept
termination_by structural _ kept => kept

/-- The members that came out, without what was filled in. -/
def Mask.unfilledMembers (mask : Mask) (record : Fields Json) : List (String × Json) → List (String × Json)
  | [] => []
  | (name, out) :: rest =>
    if mask.fillsIn record name then Mask.unfilledMembers mask record rest
    else
      let below :=
        match mask.find? name, Fields.find? record name with
        | some (.nested inner), some value => inner.unfilled value out
        | _, _ => out
      (name, below) :: Mask.unfilledMembers mask record rest
termination_by structural members => members

end

/-! ### Distinct names -/

namespace Json
variable {items : List Json} {members : Fields Json} {value : Json} {name : String}

theorem distinctItems_iff : distinctItems items = true ↔ ∀ item ∈ items, item.distinct = true := by
  induction items with
  | nil => simp [distinctItems]
  | cons item rest ih => rw [distinctItems, Bool.and_eq_true, ih, List.forall_mem_cons]

theorem distinctMembers_iff : distinctMembers members = true ↔ ∀ member ∈ members, member.2.distinct = true := by
  induction members with
  | nil => simp [distinctMembers]
  | cons head rest ih => rw [distinctMembers, Bool.and_eq_true, ih, List.forall_mem_cons]

theorem distinct_obj_iff : (obj members).distinct = true ↔
    (Fields.names members).Nodup ∧ ∀ member ∈ members, member.2.distinct = true := by
  rw [distinct, Bool.and_eq_true, decide_eq_true_iff, distinctMembers_iff]

theorem distinct_item (h : (arr items).distinct = true) (hm : value ∈ items) : value.distinct = true := by
  rw [distinct, distinctItems_iff] at h
  exact h value hm

theorem nodup_of_distinct (h : (obj members).distinct = true) : (Fields.names members).Nodup :=
  (distinct_obj_iff.mp h).1

theorem distinct_member (h : (obj members).distinct = true) (hm : (name, value) ∈ members) : value.distinct = true :=
  (distinct_obj_iff.mp h).2 _ hm

end Json

/-! ### One entry -/

section Entry
variable {record : Fields Json} {name : String} {entry : Entry}

/-- `Flagged record name entry set cleared`: what an entry makes of a record with all its flags set, and what with all
    of them cleared. Where its value is missing it lets out nothing or null. Else it lets out the same, or what its
    mask makes of the value. -/
inductive Entry.Flagged (record : Fields Json) (name : String) :
    Entry → Except Refusal (Fields Json) → Except Refusal (Fields Json) → Prop
  | missing {entry : Entry} : entry.isMissing (Fields.find? record name) = true →
      Flagged record name entry (.ok []) (.ok [(name, .null)])
  | whole {value : Json} : Fields.find? record name = some value →
      Flagged record name .selected (.ok [(name, value)]) (.ok [(name, value)])
  | through {inner : Mask} {value : Json} : Fields.find? record name = some value → value.isNull = false →
      Flagged record name (.nested inner)
        ((fun kept => [(name, kept)]) <$> atField name ((inner.withSkip true).apply value))
        ((fun kept => [(name, kept)]) <$> atField name ((inner.withSkip false).apply value))

theorem Entry.flagged (record : Fields Json) (name : String) (entry : Entry) : entry.Flagged record name
    ((entry.withSkip true).filter true record name) ((entry.withSkip false).filter false record name) := by
  cases entry with
  | selected =>
    cases hv : Fields.find? record name with
    | none =>
      rw [Entry.filter_absent hv, Entry.filter_absent hv]
      exact .missing (by rw [hv]; rfl)
    | some value =>
      rw [Entry.withSkip, Entry.withSkip, Entry.filter_selected hv, Entry.filter_selected hv]
      exact .whole hv
  | nested inner =>
    rw [Entry.withSkip, Entry.withSkip]
    cases hs : solid (Fields.find? record name) with
    | none =>
      rw [Entry.filter_nested_absent hs, Entry.filter_nested_absent hs]
      exact .missing (by rw [Entry.isMissing, hs]; rfl)
    | some value =>
      obtain ⟨hv, hz⟩ := solid_eq_some_iff.mp hs
      rw [Entry.filter_nested hv hz, Entry.filter_nested hv hz]
      exact .through hv hz

theorem Entry.solid_of_isMissing {value : Option Json} (h : entry.isMissing value = true) : solid value = none := by
  cases entry with
  | selected => rw [Option.isNone_iff_eq_none.mp h, solid_none]
  | nested inner => exact Option.isNone_iff_eq_none.mp h

end Entry

namespace Mask
variable {mask : Mask} {entries : Fields Entry} {record lean full : Fields Json} {data : Json}

theorem contains_entriesWithSkip (skip : Bool) (entries : Fields Entry) (name : String) :
    Fields.contains (entriesWithSkip skip entries) name = Fields.contains entries name := by
  rw [Fields.contains, entriesWithSkip_eq_map, Fields.find?_map, Option.isSome_map]
  rfl

theorem apply_withSkip_obj (skip : Bool) (mask : Mask) (record : Fields Json) :
    (mask.withSkip skip).apply (.obj record) = Json.obj <$> (mask.withSkip skip).filter record := rfl

/-! ### Nothing differs but nulls -/

/-- Two lists of members that came out of a record agree but for nulls, and of the members that are not null there the
    same came out. -/
structure Thins (record lean full : Fields Json) : Prop where
  agree : Json.AgreeMembers false lean full
  contains : ∀ name, (solid (Fields.find? record name)).isSome = true → Fields.contains lean name = Fields.contains full name

theorem Thins.nil (record : Fields Json) : Thins record [] [] := ⟨.refl false [], fun _ _ => rfl⟩

theorem Thins.append {lean' full' : Fields Json} (h : Thins record lean full) (h' : Thins record lean' full') :
    Thins record (lean ++ lean') (full ++ full') where
  agree := h.agree.append h'.agree
  contains name hs := by
    have first := h.contains name hs
    have later := h'.contains name hs
    simp only [Fields.contains, Fields.find?_append, Option.isSome_or] at first later ⊢
    rw [first, later]

theorem thins_of_flagged {name : String} {entry : Entry} {set cleared : Except Refusal (Fields Json)}
    (h : entry.Flagged record name set cleared)
    (hi : ∀ inner value, entry = .nested inner → Fields.find? record name = some value →
      Alike (Json.Agree false) ((inner.withSkip true).apply value) ((inner.withSkip false).apply value)) :
    Alike (Thins record) set cleared := by
  cases h with
  | missing hm =>
    refine .ok ⟨(Json.AgreeMembers.refl false []).missing_right false, fun other hs => ?_⟩
    have ho : name ≠ other := by
      rintro rfl
      rw [Entry.solid_of_isMissing hm] at hs
      cases hs
    simp [Fields.contains, Fields.find?, ho]
  | whole hv => exact .ok ⟨.refl false _, fun _ _ => rfl⟩
  | through hv hz =>
    refine ((hi _ _ rfl hv).atField name).map fun lean full ha => ⟨.cons ha (.refl false []), fun other _ => ?_⟩
    simp only [Fields.contains, Fields.find?]
    split <;> rfl

theorem filterEntries_thins (hi : ∀ name inner value, (name, .nested inner) ∈ entries → Fields.find? record name = some value →
      Alike (Json.Agree false) ((inner.withSkip true).apply value) ((inner.withSkip false).apply value)) :
    Alike (Thins record) (filterEntries true record (entriesWithSkip true entries))
      (filterEntries false record (entriesWithSkip false entries)) := by
  induction entries with
  | nil => exact .ok (.nil record)
  | cons head rest ih =>
    obtain ⟨name, entry⟩ := head
    have ih := ih fun name inner value hm => hi name inner value (List.mem_cons_of_mem _ hm)
    rw [entriesWithSkip, entriesWithSkip]
    by_cases hw : name = wildcard
    · subst hw
      rw [filterEntries_wildcard, filterEntries_wildcard]
      exact ih
    · rw [filterEntries_named hw, filterEntries_named hw]
      have here := thins_of_flagged (Entry.flagged record name entry) fun inner value he =>
        hi name inner value (he ▸ List.mem_cons_self)
      exact here.bind fun _ _ hx => ih.map fun _ _ hr => hx.append hr

theorem membersWithoutNulls_filter_congr {members : Fields Json} {p q : String × Json → Bool}
    (h : ∀ member ∈ members, member.2.isNull = false → p member = q member) :
    Json.membersWithoutNulls (members.filter p) = Json.membersWithoutNulls (members.filter q) := by
  induction members with
  | nil => rfl
  | cons head rest ih =>
    obtain ⟨name, value⟩ := head
    have ih := ih fun member hm => h member (List.mem_cons_of_mem _ hm)
    cases hz : value.isNull with
    | true =>
      -- a null does not show, whichever of the two keeps it
      cases hp : p (name, value) <;> cases hq : q (name, value) <;>
        simp [hp, hq, Json.membersWithoutNulls, hz, ih]
    | false =>
      have same := h _ List.mem_cons_self hz
      cases hq : q (name, value) <;> simp [same, hq, Json.membersWithoutNulls, hz, ih]

/-- The wildcard adds the same to both sides, but for nulls. -/
theorem Thins.remaining (hd : (Fields.names record).Nodup) (h : Thins record lean full) :
    Json.AgreeMembers false (Mask.remaining record lean) (Mask.remaining record full) := by
  refine congrArg Json.obj (membersWithoutNulls_filter_congr fun (name, value) hm hz => ?_)
  have hv : Fields.find? record name = some value := Fields.find?_of_mem hd hm
  have hs : solid (Fields.find? record name) = some value := solid_eq_some_iff.mpr ⟨hv, hz⟩
  exact congrArg not (h.contains name (by rw [hs]; rfl))

theorem filter_thins (hd : (Fields.names record).Nodup)
    (hi : ∀ name inner value, (name, .nested inner) ∈ mask.entries → Fields.find? record name = some value →
      Alike (Json.Agree false) ((inner.withSkip true).apply value) ((inner.withSkip false).apply value)) :
    Alike (Json.AgreeMembers false) ((mask.withSkip true).filter record) ((mask.withSkip false).filter record) := by
  obtain ⟨skip, entries⟩ := mask
  rw [withSkip, withSkip, filter, filter, contains_entriesWithSkip, contains_entriesWithSkip]
  refine (filterEntries_thins hi).bind fun lean full h => .ok (h.agree.append ?_)
  cases Fields.contains entries wildcard with
  | true => exact h.remaining hd
  | false => exact .refl false []

/-- By induction on the mask, and for lists on the data. -/
theorem withSkip_alike (hk : data.distinct = true) :
    Alike (Json.Agree false) ((mask.withSkip true).apply data) ((mask.withSkip false).apply data) := by
  induction mask using nodeInduction generalizing data with
  | step skip entries ihm =>
    induction data using Json.itemInduction with
    | step data ihd =>
      cases data with
      | arr items =>
        rw [apply_arr, apply_arr]
        refine (dumpItems_alike (List.forall₂_same.mpr fun item hm => ?_)).map fun _ _ h => Json.Agree.arr h
        exact ihd items rfl item hm (Json.distinct_item hk hm)
      | obj record =>
        rw [apply_withSkip_obj, apply_withSkip_obj]
        refine Alike.map (filter_thins (Json.nodup_of_distinct hk) fun name inner value hm hv => ?_) fun _ _ h => h
        exact ihm name inner hm (Json.distinct_member hk (Fields.mem_of_find? hv))
      | null | bool _ | num _ | str _ => exact .error _

/-! ### Just what was filled in -/

theorem unfilledMembers_cons {name : String} {out : Json} {rest : Fields Json} (h : mask.fillsIn record name = false) :
    unfilledMembers mask record ((name, out) :: rest) =
      (name, match mask.find? name, Fields.find? record name with
        | some (.nested inner), some value => inner.unfilled value out
        | _, _ => out) :: unfilledMembers mask record rest := by
  rw [unfilledMembers, if_neg (by simp [h])]

theorem filterEntries_unfilled (hs : ∀ field ∈ entries, mask.find? field.1 = some field.2)
    (hw : ∀ name ∈ Fields.names entries, name ≠ wildcard)
    (hi : ∀ name inner, (name, .nested inner) ∈ entries → ∀ value,
      Alike (fun lean full => lean = inner.unfilled value full) ((inner.withSkip true).apply value)
        ((inner.withSkip false).apply value)) :
    Alike (fun lean full => lean = unfilledMembers mask record full)
      (filterEntries true record (entriesWithSkip true entries))
      (filterEntries false record (entriesWithSkip false entries)) := by
  induction entries with
  | nil => exact .ok rfl
  | cons head rest ih =>
    obtain ⟨name, entry⟩ := head
    have said : mask.find? name = some entry := hs _ List.mem_cons_self
    have hn : name ≠ wildcard := hw name List.mem_cons_self
    have ih := ih (fun field hm => hs field (List.mem_cons_of_mem _ hm)) (fun name hm => hw name (List.mem_cons_of_mem _ hm))
      fun name inner hm => hi name inner (List.mem_cons_of_mem _ hm)
    have fills : mask.fillsIn record name = entry.isMissing (Fields.find? record name) := by
      rw [fillsIn, said, Option.any_some]
    rw [entriesWithSkip, entriesWithSkip, filterEntries_named hn, filterEntries_named hn]
    generalize hset : (entry.withSkip true).filter true record name = set
    generalize hcleared : (entry.withSkip false).filter false record name = cleared
    have here : entry.Flagged record name set cleared := hset ▸ hcleared ▸ Entry.flagged record name entry
    cases here with
    | missing hm =>
      rw [ok_bind, ok_bind]
      refine ih.map fun lean full h => ?_
      rw [List.nil_append, List.singleton_append, unfilledMembers, if_pos (fills.trans hm), h]
    | @whole value hv =>
      rw [ok_bind, ok_bind]
      refine ih.map fun lean full h => ?_
      rw [hv] at fills
      rw [List.singleton_append, List.singleton_append, unfilledMembers_cons fills, said, h]
    | @through inner value hv hz =>
      have stays : mask.fillsIn record name = false := by
        rw [fills, Entry.isMissing, solid_eq_some_iff.mpr ⟨hv, hz⟩]
        rfl
      have below := (hi name inner List.mem_cons_self value).atField name
      have here : Alike (fun lean full => ∃ out, lean = [(name, inner.unfilled value out)] ∧ full = [(name, out)])
          ((fun kept => [(name, kept)]) <$> atField name ((inner.withSkip true).apply value))
          ((fun kept => [(name, kept)]) <$> atField name ((inner.withSkip false).apply value)) :=
        below.map fun lean full h => ⟨full, by rw [h], rfl⟩
      refine here.bind fun lean full hx => ih.map fun leans fulls hr => ?_
      obtain ⟨out, rfl, rfl⟩ := hx
      rw [List.singleton_append, List.singleton_append, unfilledMembers_cons stays, said, hv, hr]

theorem dumpItems_unfilled {items : List Json} (h : ∀ item ∈ items,
      Alike (fun lean full => lean = mask.unfilled item full) ((mask.withSkip true).apply item)
        ((mask.withSkip false).apply item)) :
    Alike (fun leans fulls => leans = unfilledItems mask items fulls) (dumpItems (mask.withSkip true).apply items)
      (dumpItems (mask.withSkip false).apply items) := by
  induction items with
  | nil => exact .ok rfl
  | cons item rest ih =>
    have ih := ih fun item hm => h item (List.mem_cons_of_mem _ hm)
    rw [dumpItems, dumpItems]
    refine (h item List.mem_cons_self).bind fun lean full hx => ih.bind fun leans fulls hr => .ok ?_
    rw [unfilledItems, hx, hr]

/-- By induction on the mask, and for lists on the data. -/
theorem withSkip_unfilled (hd : mask.Everywhere fun node => node.names.Nodup)
    (hw : mask.Everywhere fun node => node.hasWildcard = false) :
    Alike (fun lean full => lean = mask.unfilled data full) ((mask.withSkip true).apply data)
      ((mask.withSkip false).apply data) := by
  induction mask using nodeInduction generalizing data with
  | step skip entries ihm =>
    induction data using Json.itemInduction with
    | step data ihd =>
      cases data with
      | arr items =>
        rw [apply_arr, apply_arr]
        exact (dumpItems_unfilled (ihd items rfl)).map fun _ _ h => by rw [unfilled, h]
      | obj record =>
        have plain (flag : Bool) : ((mk skip entries).withSkip flag).hasWildcard = false :=
          (contains_entriesWithSkip flag entries wildcard).trans hw.root
        rw [apply_withSkip_obj, apply_withSkip_obj, filter_eq_filterEntries (plain true), filter_eq_filterEntries (plain false)]
        have named : Alike (fun lean full => lean = unfilledMembers (mk skip entries) record full)
            (filterEntries true record (entriesWithSkip true entries))
            (filterEntries false record (entriesWithSkip false entries)) := by
          refine filterEntries_unfilled (fun field hm => Fields.find?_of_mem hd.root hm) (fun name hm => ne_wildcard hw.root hm) ?_
          exact fun name inner hm value => ihm name inner hm (hd.below hm) (hw.below hm)
        exact named.map fun _ _ h => by rw [unfilled, h]
      | null | bool _ | num _ | str _ => exact .error _

end Mask

/-- The skip flags only decide on nulls. With all of them set a mask is refused as it is with all of them cleared, or it
    lets out the same but for members that are null. If it has no wildcard it lets out what it lets out without the
    flags, less the members that it fills in: where a field taken whole is absent, or a nested one absent or null. A null
    that the data hold under a field taken whole is not filled in and stays. -/
theorem skip_removes_nulls {mask : Mask} {data : Json} (hd : mask.Everywhere fun node => node.names.Nodup)
    (hk : data.distinct = true) :
    Alike (fun lean full => lean.withoutNulls = full.withoutNulls) ((mask.withSkip true).apply data)
      ((mask.withSkip false).apply data) ∧
    ((mask.Everywhere fun node => node.hasWildcard = false) →
      (mask.withSkip true).apply data = mask.unfilled data <$> (mask.withSkip false).apply data) := by
  constructor
  · have alike : Alike (Json.Agree false) ((mask.withSkip true).apply data) ((mask.withSkip false).apply data) :=
      Mask.withSkip_alike hk
    exact alike
  · intro hw
    have alike : Alike (fun lean full => lean = mask.unfilled data full) ((mask.withSkip true).apply data)
        ((mask.withSkip false).apply data) := Mask.withSkip_unfilled hd hw
    generalize (mask.withSkip true).apply data = set at alike ⊢
    generalize (mask.withSkip false).apply data = cleared at alike ⊢
    cases alike with
    | error refusal => rfl
    | ok same => rw [map_ok, same]

/-- The mask `a{b,c},x,y,z{b}` on a list that lacks some of `b` and `c`, with `x` and `z` null and no `y`: the null under
    `x` and the one under `b` are in the data and stay. -/
theorem skip_removes_nulls_in_list :
    let mask : Mask := .mk true [("a", .nested (.mk false [("b", .selected), ("c", .selected)])), ("x", .selected),
      ("y", .selected), ("z", .nested (.mk true [("b", .selected)]))]
    let data : Json := .obj [("z", .null), ("x", .null), ("a", .arr [.obj [("b", .null)], .obj [("c", .str "d"), ("e", .null)]])]
    let full : Json := .obj [("a", .arr [.obj [("b", .null), ("c", .null)], .obj [("b", .null), ("c", .str "d")]]),
      ("x", .null), ("y", .null), ("z", .null)]
    let lean : Json := .obj [("a", .arr [.obj [("b", .null)], .obj [("c", .str "d")]]), ("x", .null)]
    (mask.Everywhere fun node => node.names.Nodup) ∧ data.distinct = true ∧
      (mask.Everywhere fun node => node.hasWildcard = false) ∧ (mask.withSkip false).apply data = .ok full ∧
      mask.unfilled data full = lean ∧ (mask.withSkip true).apply data = .ok lean ∧
      lean.withoutNulls = full.withoutNulls := by
  intro mask data full lean
  have hd : mask.Everywhere fun node => node.names.Nodup := by decide
  have hk : data.distinct = true := by decide
  have hw : mask.Everywhere fun node => node.hasWildcard = false := by decide
  have hfull : (mask.withSkip false).apply data = .ok full := rfl
  have hlean : mask.unfilled data full = lean := by decide
  obtain ⟨alike, unfilled⟩ := skip_removes_nulls hd hk
  have set : (mask.withSkip true).apply data = .ok lean := by rw [unfilled hw, hfull, map_ok, hlean]
  rw [set, hfull] at alike
  cases alike with
  | ok same => exact ⟨hd, hk, hw, hfull, hlean, set, same⟩

end FieldMask
