import FieldMask.Proofs.Reading

/-! How early a malformed list of tokens is refused. The open groups are the opening brackets that no closing one
    answers (`Reading.balance_run`), and closing them completes whatever was read so far (`Reading.close_all`).
    So the token that is refused is the first one after which nothing can be accepted any more, and what is
    left open at the end misses exactly its closing brackets. -/

namespace FieldMask

/-- What a token is refused for, where it cannot stand. A name can stand anywhere. -/
def Token.blame? : Token → Option Malformed
  | .opening => some .strayOpening
  | .closing => some .strayClosing
  | .comma => some .strayComma
  | .name _ => none

/-- The number of opening brackets over that of closing ones. -/
def depth (tokens : List Token) : Nat := tokens.count .opening - tokens.count .closing

/-- The reader takes all of the tokens and has come to the reading. -/
def Reading.Reached (skip : Bool) (tokens : List Token) (reading : Reading) : Prop :=
  tokens.foldlM (Reading.step skip) (Reading.start skip) = .ok reading

/-- The reader takes all of the tokens before, and refuses the next one. -/
def Mask.StopsAt (skip : Bool) (before : List Token) (token : Token) (cause : Malformed) : Prop :=
  ∃ reading, Reading.Reached skip before reading ∧ Reading.step skip reading token = .error cause

/-- The tokens spell a mask. -/
def Mask.Accepts (skip : Bool) (tokens : List Token) : Prop := ∃ mask, Mask.ofTokens skip tokens = .ok mask

namespace Reading
variable {skip : Bool} {reading after : Reading} {token : Token} {tokens : List Token} {cause : Malformed}

/-! ### One step -/

theorem blame_of_step (h : step skip reading token = .error cause) : token.blame? = some cause := by
  obtain ⟨position, group, around⟩ := reading
  cases token with
  | name name =>
    rw [step_name] at h
    cases h
  | opening => cases position <;> cases h <;> rfl
  | comma => cases position <;> cases h <;> rfl
  | closing =>
    cases around with
    | nil =>
      rw [step_closing_nil] at h
      cases h
      rfl
    | cons frame outer =>
      rw [step_closing_cons] at h
      cases h

/-- A closing bracket is refused exactly if no group is open. -/
theorem step_closing_error_iff (skip : Bool) : (∃ cause, step skip reading .closing = .error cause) ↔ reading.around = [] := by
  obtain ⟨position, group, around⟩ := reading
  cases around with
  | nil => simp
  | cons frame outer => simp

/-- An opening bracket opens a group, a closing one closes one, and other tokens do neither. -/
theorem balance_step (h : step skip reading token = .ok after) :
    after.around.length + [token].count .closing = reading.around.length + [token].count .opening := by
  rcases step_cases h with ⟨name, rfl, rfl⟩ | ⟨name, rfl, -, rfl⟩ | ⟨frame, outer, rfl, ha, rfl⟩ | ⟨rfl, -, rfl⟩
  · rfl
  · rfl
  · rw [ha]
    rfl
  · rfl

/-! ### A whole run -/

theorem balance_run (h : tokens.foldlM (step skip) reading = .ok after) :
    after.around.length + tokens.count .closing = reading.around.length + tokens.count .opening := by
  induction tokens generalizing reading with
  | nil =>
    cases h
    rfl
  | cons token rest ih =>
    rw [List.foldlM_cons] at h
    obtain ⟨middle, hs, hr⟩ := bind_eq_ok_iff.mp h
    have first := balance_step hs
    have others := ih hr
    have split (mark : Token) : (token :: rest).count mark = [token].count mark + rest.count mark := by
      rw [← List.count_append, List.singleton_append]
    rw [split, split]
    omega

theorem Reached.balance (h : Reached skip tokens reading) :
    reading.around.length + tokens.count .closing = tokens.count .opening := by
  have := balance_run h
  simpa [start] using this

theorem Reached.length_around (h : Reached skip tokens reading) : reading.around.length = depth tokens := by
  have := h.balance
  unfold depth
  omega

/-- At any position the open groups can be closed one after the other. -/
theorem close_all (skip : Bool) (position : Position) (group : Mask) (around : List Frame) :
    ∃ after, (List.replicate around.length Token.closing).foldlM (step skip) ⟨position, group, around⟩ = .ok after ∧
      after.around = [] := by
  induction around generalizing position group with
  | nil => exact ⟨_, rfl, rfl⟩
  | cons frame outer ih =>
    rw [List.length_cons, List.replicate_succ, List.foldlM_cons, step_closing_cons, ok_bind]
    exact ih .afterGroup _

theorem Reached.append {more : List Token} (h : Reached skip tokens reading) :
    Reached skip (tokens ++ more) after ↔ more.foldlM (step skip) reading = .ok after := by
  rw [Reached, List.foldlM_append, show tokens.foldlM (step skip) (start skip) = .ok reading from h, ok_bind]

theorem finish_eq_ok_iff {mask : Mask} : reading.finish = .ok mask ↔ reading.around = [] ∧ reading.group = mask := by
  obtain ⟨position, group, around⟩ := reading
  cases around <;> simp [finish]

theorem finish_eq_error_iff : reading.finish = .error cause ↔ reading.around ≠ [] ∧ cause = .unclosedGroup := by
  obtain ⟨position, group, around⟩ := reading
  cases around <;> simp [finish, eq_comm]

end Reading

namespace Mask
variable {skip : Bool} {reading : Reading} {token : Token} {tokens before rest : List Token} {cause : Malformed}

/-! ### Acceptance -/

theorem accepts_iff : Accepts skip tokens ↔ ∃ reading, Reading.Reached skip tokens reading ∧ reading.around = [] := by
  constructor
  · rintro ⟨mask, h⟩
    obtain ⟨reading, hr, hf⟩ := bind_eq_ok_iff.mp h
    exact ⟨reading, hr, (Reading.finish_eq_ok_iff.mp hf).1⟩
  · rintro ⟨reading, hr, ha⟩
    exact ⟨reading.group, bind_eq_ok_iff.mpr ⟨reading, hr, Reading.finish_eq_ok_iff.mpr ⟨ha, rfl⟩⟩⟩

/-- Closing brackets complete what was read exactly if they are as many as there are open groups. -/
theorem accepts_closed_iff (h : Reading.Reached skip tokens reading) (count : Nat) :
    Accepts skip (tokens ++ List.replicate count .closing) ↔ count = depth tokens := by
  rw [accepts_iff]
  constructor
  · rintro ⟨after, hr, ha⟩
    have before := h.balance
    have whole := hr.balance
    have closed : (List.replicate count Token.closing).count .closing = count := List.count_replicate_self
    have opened : (List.replicate count Token.closing).count .opening = 0 := by simp [List.count_replicate]
    rw [ha, List.count_append, List.count_append, closed, opened, List.length_nil] at whole
    unfold depth
    omega
  · rintro rfl
    obtain ⟨position, group, around⟩ := reading
    obtain ⟨after, hc, ha⟩ := Reading.close_all skip position group around
    rw [← h.length_around]
    exact ⟨after, h.append.mpr hc, ha⟩

/-! ### Refusal -/

theorem StopsAt.refused (h : StopsAt skip before token cause) (rest : List Token) :
    ofTokens skip (before ++ token :: rest) = .error cause := by
  obtain ⟨reading, hr, hs⟩ := h
  have run : (before ++ token :: rest).foldlM (Reading.step skip) (Reading.start skip) = .error cause :=
    foldlM_eq_error_iff.mpr ⟨before, token, rest, reading, rfl, hr, hs⟩
  rw [ofTokens, run, error_bind]

/-- Reading some tokens fails at a token that is refused, or at the end because of an open group. -/
theorem ofTokens_eq_error_iff : ofTokens skip tokens = .error cause ↔
    (∃ before token rest, tokens = before ++ token :: rest ∧ StopsAt skip before token cause) ∨
    cause = .unclosedGroup ∧ ∃ reading, Reading.Reached skip tokens reading ∧ reading.around ≠ [] := by
  constructor
  · intro h
    rw [ofTokens] at h
    cases hr : tokens.foldlM (Reading.step skip) (Reading.start skip) with
    | error other =>
      rw [hr, error_bind] at h
      cases h
      obtain ⟨before, token, rest, reading, rfl, hb, hs⟩ := foldlM_eq_error_iff.mp hr
      exact Or.inl ⟨before, token, rest, rfl, reading, hb, hs⟩
    | ok reading =>
      rw [hr, ok_bind] at h
      obtain ⟨ha, rfl⟩ := Reading.finish_eq_error_iff.mp h
      exact Or.inr ⟨rfl, reading, hr, ha⟩
  · rintro (⟨before, token, rest, rfl, h⟩ | ⟨rfl, reading, hr, ha⟩)
    · exact h.refused rest
    · rw [ofTokens, show tokens.foldlM (Reading.step skip) (Reading.start skip) = .ok reading from hr, ok_bind]
      exact Reading.finish_eq_error_iff.mpr ⟨ha, rfl⟩

/-- A name is never refused. -/
theorem not_stopsAt_name (name : String) : ¬ StopsAt skip before (.name name) cause := by
  rintro ⟨reading, -, hs⟩
  cases Reading.blame_of_step hs

/-- A closing bracket is refused exactly if all groups before it are closed. -/
theorem stopsAt_closing_iff (h : Reading.Reached skip tokens reading) :
    (∃ cause, StopsAt skip tokens .closing cause) ↔ tokens.count .opening = tokens.count .closing := by
  have closed : tokens.count .opening = tokens.count .closing ↔ reading.around = [] := by
    rw [← List.length_eq_zero_iff, ← h.balance]
    omega
  rw [closed, ← Reading.step_closing_error_iff skip]
  constructor
  · rintro ⟨cause, other, hr, hs⟩
    obtain rfl : reading = other := Except.ok.inj (h.symm.trans hr)
    exact ⟨cause, hs⟩
  · rintro ⟨cause, hs⟩
    exact ⟨cause, reading, h, hs⟩

theorem depth_of_unclosed (h : ofTokens skip tokens = .error .unclosedGroup) :
    ∃ reading, Reading.Reached skip tokens reading ∧ 1 ≤ depth tokens := by
  rcases ofTokens_eq_error_iff.mp h with ⟨before, token, rest, -, reading, -, hs⟩ | ⟨-, reading, hr, ha⟩
  · have blame := Reading.blame_of_step hs
    cases token <;> cases blame
  · refine ⟨reading, hr, ?_⟩
    rw [← hr.length_around]
    exact List.length_pos_iff.mpr ha

end Mask

/-- Reading fails at the first token that leaves no way to go on, or at the end with groups left open. Before a
    refused token, closing the open groups makes a mask; with it, whatever follows is refused for the cause that
    goes with the token. A name is never refused, and a closing bracket only if no group is open. Tokens that end
    with open groups become a mask by one closing bracket for each of them, and by no other number. -/
theorem refuses_earliest (skip : Bool) (tokens : List Token) :
    (∀ cause, Mask.ofTokens skip tokens = .error cause ↔
      (∃ before token rest, tokens = before ++ token :: rest ∧ Mask.StopsAt skip before token cause) ∨
      cause = .unclosedGroup ∧ ∃ reading, Reading.Reached skip tokens reading ∧ reading.around ≠ []) ∧
    (∀ token cause, Mask.StopsAt skip tokens token cause →
      Mask.Accepts skip (tokens ++ List.replicate (depth tokens) .closing) ∧
      (∀ rest, Mask.ofTokens skip (tokens ++ token :: rest) = .error cause) ∧ token.blame? = some cause) ∧
    (∀ reading, Reading.Reached skip tokens reading →
      reading.around.length = depth tokens ∧ tokens.count .closing ≤ tokens.count .opening ∧
      (∀ name cause, ¬ Mask.StopsAt skip tokens (.name name) cause) ∧
      ((∃ cause, Mask.StopsAt skip tokens .closing cause) ↔ tokens.count .opening = tokens.count .closing)) ∧
    (Mask.ofTokens skip tokens = .error .unclosedGroup → 1 ≤ depth tokens ∧
      ∀ count, Mask.Accepts skip (tokens ++ List.replicate count .closing) ↔ count = depth tokens) := by
  refine ⟨fun cause => Mask.ofTokens_eq_error_iff, fun token cause h => ?_, fun reading h => ?_, fun h => ?_⟩
  · obtain ⟨reading, hr, hs⟩ := h
    exact ⟨(Mask.accepts_closed_iff hr _).mpr rfl, Mask.StopsAt.refused ⟨reading, hr, hs⟩, Reading.blame_of_step hs⟩
  · have balance := h.balance
    exact ⟨h.length_around, by omega, fun name _ => Mask.not_stopsAt_name name, Mask.stopsAt_closing_iff h⟩
  · obtain ⟨reading, hr, hd⟩ := Mask.depth_of_unclosed h
    exact ⟨hd, Mask.accepts_closed_iff hr⟩

/-- After `a{b,` a second comma is refused, and one closing bracket makes a mask. -/
theorem refuses_earliest_second_comma :
    let tokens : List Token := [.name "a", .opening, .name "b", .comma]
    Mask.StopsAt true tokens .comma .strayComma ∧ Mask.Accepts true (tokens ++ [.closing]) ∧
      (∀ rest, Mask.ofTokens true (tokens ++ .comma :: rest) = .error .strayComma) ∧
      Mask.ofTokens true tokens = .error .unclosedGroup ∧
      ∀ count, Mask.Accepts true (tokens ++ List.replicate count .closing) ↔ count = 1 := by
  intro tokens
  have stops : Mask.StopsAt true tokens .comma .strayComma := ⟨_, rfl, rfl⟩
  have unclosed : Mask.ofTokens true tokens = .error .unclosedGroup := rfl
  obtain ⟨-, atToken, -, atEnd⟩ := refuses_earliest true tokens
  obtain ⟨accepted, refused, -⟩ := atToken .comma .strayComma stops
  exact ⟨stops, accepted, refused, unclosed, (atEnd unclosed).2⟩

end FieldMask
