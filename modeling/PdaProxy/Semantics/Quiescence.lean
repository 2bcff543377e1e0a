import PdaProxy.Semantics.Transition

/-! Systems that come to rest. Where every allowed step lowers a potential, no run is longer
than the potential it starts with, and every state has a run to one where no step is allowed. -/
namespace PdaProxy.Semantics.Quiescence
open PdaProxy.Semantics.Transition

variable {S A : Type} {step : S → A → Option S} {guard : S → A → Prop}

def AtRest (step : S → A → Option S) (guard : S → A → Prop) (s : S) : Prop :=
  ∀ action, guard s action → step s action = none

/-- Each allowed step keeps the invariant and lowers the potential. -/
def Lowers (step : S → A → Option S) (guard : S → A → Prop) (inv : S → Prop) (potential : S → Nat) : Prop :=
  ∀ s action t, inv s → guard s action → step s action = some t → inv t ∧ potential t < potential s

section
variable {inv : S → Prop} {potential : S → Nat}

theorem bounded (lowers : Lowers step guard inv potential) {s : S} (holds : inv s) {actions : List A}
    (executes : Executes step guard s actions) : actions.length ≤ potential s := by
  induction actions generalizing s with
  | nil => exact Nat.zero_le _
  | cons action rest ih =>
    obtain ⟨allowed,t,moved,later⟩ := executes
    obtain ⟨kept,lower⟩ := lowers s action t holds allowed moved
    exact Nat.lt_of_le_of_lt (ih kept later) lower

theorem comes_to_rest (lowers : Lowers step guard inv potential) (s : S) (holds : inv s) :
    ∃ t, Reaches step guard s t ∧ AtRest step guard t := by
  by_cases rested : AtRest step guard s
  · exact ⟨s,.refl,rested⟩
  · simp only [AtRest,Classical.not_forall] at rested
    obtain ⟨action,allowed,moves⟩ := rested
    obtain ⟨u,moved⟩ := Option.ne_none_iff_exists'.mp moves
    obtain ⟨kept,lower⟩ := lowers s action u holds allowed moved
    obtain ⟨t,later,rested⟩ := comes_to_rest lowers u kept
    exact ⟨t,.head ⟨action,allowed,moved⟩ later,rested⟩
termination_by potential s

theorem Lowers.weaken {stronger : S → A → Prop} (lowers : Lowers step guard inv potential)
    (implied : ∀ s action, stronger s action → guard s action) : Lowers step stronger inv potential :=
  fun s action t holds allowed moved => lowers s action t holds (implied s action allowed) moved

end

/-- Work that is done by tokens, each with the steps it has left, and by a number of writers
each of whose writes can set every token back. -/
structure Budget where
  own : Nat
  writes : Nat
  tokens : Nat
  weight : Nat

/-- `gain` bounds the steps that a token is set back by one write. -/
def Budget.potential (gain : Nat) (budget : Budget) : Nat :=
  budget.own + gain * (budget.writes * budget.tokens) + budget.weight

section
variable {before after : Budget} {gain : Nat}

theorem Budget.lt_of_advanced (advanced : after.own + after.weight < before.own + before.weight)
    (writes : after.writes ≤ before.writes) (tokens : after.tokens ≤ before.tokens) :
    after.potential gain < before.potential gain := by
  have setBacks : gain * (after.writes * after.tokens) ≤ gain * (before.writes * before.tokens) :=
    Nat.mul_le_mul_left gain (Nat.mul_le_mul writes tokens)
  unfold Budget.potential
  omega

theorem Budget.lt_of_written (own : after.own < before.own) (writes : after.writes < before.writes)
    (tokens : after.tokens ≤ before.tokens) (weight : after.weight ≤ before.weight + gain * before.tokens) :
    after.potential gain < before.potential gain := by
  have setBacks : gain * (after.writes * after.tokens) + gain * before.tokens ≤
      gain * (before.writes * before.tokens) := by
    rw [← Nat.mul_add]
    apply Nat.mul_le_mul_left
    calc after.writes * after.tokens + before.tokens
        ≤ after.writes * before.tokens + before.tokens := Nat.add_le_add_right (Nat.mul_le_mul_left _ tokens) _
      _ = (after.writes + 1) * before.tokens := (Nat.succ_mul _ _).symm
      _ ≤ before.writes * before.tokens := Nat.mul_le_mul_right _ writes
  unfold Budget.potential
  omega

end

end PdaProxy.Semantics.Quiescence
