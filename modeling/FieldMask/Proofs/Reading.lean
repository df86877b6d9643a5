import FieldMask.Mask.Reading
import FieldMask.Proofs.Nodes
import FieldMask.Proofs.Outcome

/-! What one token does to a half-read mask; `step_cases` says everything that a step can do. The skip flag
    decides nothing: a reading with other flags takes the same steps and is refused for the same cause. -/

namespace FieldMask

/-- A comma may follow: the reader stands after a field or a group. -/
def Position.AllowsComma (position : Position) : Prop := position.next .comma = .ok (.separate, .afterComma)

namespace Reading
variable {skip : Bool} {position : Position} {group : Mask} {around : List Frame}

/-! ### One step -/

@[simp] theorem step_name (name : String) :
    step skip ⟨position, group, around⟩ (.name name) = .ok ⟨.afterName name, group.insert name .selected, around⟩ := by
  cases position <;> rfl

@[simp] theorem step_opening (name : String) :
    step skip ⟨.afterName name, group, around⟩ .opening = .ok ⟨.groupStart, .empty skip, ⟨group, name⟩ :: around⟩ :=
  rfl

@[simp] theorem step_closing_nil : step skip ⟨position, group, []⟩ .closing = .error .strayClosing := by
  cases position <;> rfl

@[simp] theorem step_closing_cons (frame : Frame) :
    step skip ⟨position, group, frame :: around⟩ .closing =
      .ok ⟨.afterGroup, frame.group.insert frame.field (.nested group), around⟩ := by
  cases position <;> rfl

theorem step_comma (h : position.AllowsComma) :
    step skip ⟨position, group, around⟩ .comma = .ok ⟨.afterComma, group, around⟩ := by
  unfold step
  rw [show (⟨position, group, around⟩ : Reading).position.next .comma = _ from h]
  rfl

/-- What a token that is not refused does. -/
theorem step_cases {reading after : Reading} {token : Token} (h : step skip reading token = .ok after) :
    (∃ name, token = .name name ∧
      after = ⟨.afterName name, reading.group.insert name .selected, reading.around⟩) ∨
    (∃ name, token = .opening ∧ reading.position = .afterName name ∧
      after = ⟨.groupStart, .empty skip, ⟨reading.group, name⟩ :: reading.around⟩) ∨
    (∃ frame outer, token = .closing ∧ reading.around = frame :: outer ∧
      after = ⟨.afterGroup, frame.group.insert frame.field (.nested reading.group), outer⟩) ∨
    (token = .comma ∧ reading.position.AllowsComma ∧ after = ⟨.afterComma, reading.group, reading.around⟩) := by
  obtain ⟨position, group, around⟩ := reading
  cases token with
  | name name =>
    rw [step_name] at h
    exact Or.inl ⟨name, rfl, (Except.ok.inj h).symm⟩
  | opening =>
    cases position with
    | afterName name => exact Or.inr (Or.inl ⟨name, rfl, rfl, (Except.ok.inj h).symm⟩)
    | groupStart => cases h
    | afterGroup => cases h
    | afterComma => cases h
  | closing =>
    cases around with
    | nil =>
      rw [step_closing_nil] at h
      cases h
    | cons frame outer =>
      rw [step_closing_cons] at h
      exact Or.inr (Or.inr (Or.inl ⟨frame, outer, rfl, rfl, (Except.ok.inj h).symm⟩))
  | comma =>
    have hp : position.AllowsComma := by
      cases position with
      | afterName name => rfl
      | afterGroup => rfl
      | groupStart => cases h
      | afterComma => cases h
    rw [step_comma hp] at h
    exact Or.inr (Or.inr (Or.inr ⟨rfl, hp, (Except.ok.inj h).symm⟩))

/-! ### The skip flag -/

/-- The reading with every skip flag replaced. -/
def withSkip (skip : Bool) (reading : Reading) : Reading :=
  ⟨reading.position, reading.group.withSkip skip,
    reading.around.map fun frame => ⟨frame.group.withSkip skip, frame.field⟩⟩

theorem step_withSkip (skip other : Bool) (reading : Reading) (token : Token) :
    step other (reading.withSkip other) token = withSkip other <$> step skip reading token := by
  obtain ⟨position, group, around⟩ := reading
  cases token with
  | name name => simp [withSkip, Mask.withSkip_insert, Entry.withSkip]
  | opening => cases position <;> rfl
  | closing =>
    cases around with
    | nil => simp [withSkip]
    | cons frame outer => simp [withSkip, Mask.withSkip_insert, Entry.withSkip]
  | comma => cases position <;> rfl

theorem foldlM_withSkip (skip other : Bool) (reading : Reading) (tokens : List Token) :
    tokens.foldlM (step other) (reading.withSkip other) = withSkip other <$> tokens.foldlM (step skip) reading := by
  induction tokens generalizing reading with
  | nil => rfl
  | cons token rest ih =>
    rw [List.foldlM_cons, List.foldlM_cons, step_withSkip skip]
    cases step skip reading token with
    | error cause => rfl
    | ok after => exact ih after

theorem finish_withSkip (other : Bool) (reading : Reading) :
    (reading.withSkip other).finish = Mask.withSkip other <$> reading.finish := by
  obtain ⟨position, group, around⟩ := reading
  cases around <;> rfl

end Reading

namespace Mask

theorem ofTokens_withSkip (skip other : Bool) (tokens : List Token) :
    ofTokens other tokens = withSkip other <$> ofTokens skip tokens := by
  have h : Reading.start other = (Reading.start skip).withSkip other := rfl
  unfold ofTokens
  rw [h, Reading.foldlM_withSkip skip]
  cases tokens.foldlM (Reading.step skip) (Reading.start skip) with
  | error cause => rfl
  | ok reading => exact reading.finish_withSkip other

/-- Reading a text with another skip policy gives the same mask with other flags, or the same refusal. -/
theorem parse_withSkip (text : String) (skip other : Bool) :
    parse text other = withSkip other <$> parse text skip := by
  unfold parse
  cases clean text with
  | error cause => rfl
  | ok cleaned => exact ofTokens_withSkip skip other _

end Mask
end FieldMask
