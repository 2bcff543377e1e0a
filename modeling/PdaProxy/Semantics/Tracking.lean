import PdaProxy.Semantics.Transition
import Mathlib.Order.Basic

/-! Runs that keep a record of themselves beside the state. A property of the history of a
run is an invariant of the recorded run; what only needs the record at the end of the run
can be shown of the run alone. -/
namespace PdaProxy.Semantics.Tracking
open PdaProxy.Semantics.Transition

variable {S A H : Type}

/-- A step of the system, with what its action and its two states add to the record. -/
def tracked (step : S → A → Option S) (observe : S → A → S → H → H) (state : S × H) (action : A) : Option (S × H) :=
  (step state.1 action).map fun after => (after,observe state.1 action after state.2)

variable {step : S → A → Option S} {observe : S → A → S → H → H}

theorem tracked_eq_some {before after : S × H} {action : A} :
    tracked step observe before action = some after ↔
      step before.1 action = some after.1 ∧ after.2 = observe before.1 action after.1 before.2 := by
  obtain ⟨t,record⟩ := after
  simp only [tracked,Option.map_eq_some_iff,Prod.mk.injEq]
  constructor
  · intro moved
    obtain ⟨_,stepped,rfl,rfl⟩ := moved
    exact ⟨stepped,rfl⟩
  · intro moved
    exact ⟨t,moved.1,rfl,moved.2.symm⟩

theorem forget {guard : S × H → A → Prop} {weaker : S → A → Prop} {start reached : S × H}
    (implied : ∀ s record action, guard (s,record) action → weaker s action)
    (run : Reaches (tracked step observe) guard start reached) : Reaches step weaker start.1 reached.1 := by
  induction run with
  | refl => exact .refl
  | tail _ last ih =>
    obtain ⟨action,allowed,moved⟩ := last
    exact ih.tail ⟨action,implied _ _ action allowed,(tracked_eq_some.mp moved).1⟩

section
variable [Preorder H] {guard : S × H → A → Prop} {start reached : S × H}

theorem record_grows (grows : ∀ s action t record, record ≤ observe s action t record)
    (run : Reaches (tracked step observe) guard start reached) : start.2 ≤ reached.2 := by
  apply run.invariant _ (le_refl start.2)
  intro before action after grown _ moved
  rw [(tracked_eq_some.mp moved).2]
  exact grown.trans (grows _ _ _ _)

/-- Where the record only grows, what each step adds is in the record of the whole run, and
the run alone meets any guard that this implies. -/
theorem forget_within {weaker : S → A → Prop} (grows : ∀ s action t record, record ≤ observe s action t record)
    (implied : ∀ s action t record, guard (s,record) action → step s action = some t →
      observe s action t record ≤ reached.2 → weaker s action)
    (run : Reaches (tracked step observe) guard start reached) : Reaches step weaker start.1 reached.1 := by
  induction run using Relation.ReflTransGen.head_induction_on with
  | refl => exact .refl
  | head first later ih =>
    obtain ⟨action,allowed,moved⟩ := first
    obtain ⟨stepped,recorded⟩ := tracked_eq_some.mp moved
    refine .head ⟨action,implied _ action _ _ allowed stepped ?_,stepped⟩ ih
    rw [← recorded]
    exact record_grows grows later

end

end PdaProxy.Semantics.Tracking
