import PdaProxy.Semantics.Transition
import Mathlib.Data.List.Basic

/-! Two runs of one system in lockstep, as one run of the system paired with itself, and the
outputs of the two, which only grow: once they are apart they stay so. And runs with some of
their actions left out, which end in a view of where the whole run ends. -/
namespace PdaProxy.Semantics.Noninterference
open PdaProxy.Semantics.Transition

variable {S A O : Type}

def paired (step : S → A → Option S) (pair : S × S) (actions : A × A) : Option (S × S) :=
  (step pair.1 actions.1).bind fun first => (step pair.2 actions.2).map fun second => (first,second)

theorem paired_eq_some {step : S → A → Option S} {pair after : S × S} {actions : A × A} :
    paired step pair actions = some after ↔
      step pair.1 actions.1 = some after.1 ∧ step pair.2 actions.2 = some after.2 := by
  obtain ⟨first,second⟩ := after
  simp only [paired,Option.bind_eq_some_iff,Option.map_eq_some_iff,Prod.mk.injEq]
  constructor
  · intro moved
    obtain ⟨_,left,_,right,rfl,rfl⟩ := moved
    exact ⟨left,right⟩
  · intro moved
    exact ⟨first,moved.1,second,moved.2,rfl,rfl⟩

/-- Neither output can become the other by growing. -/
structure Apart (first second : List O) : Prop where
  left : ¬ first <+: second
  right : ¬ second <+: first

theorem Apart.ne {first second : List O} (apart : Apart first second) : first ≠ second := by
  rintro rfl
  exact apart.left List.prefix_rfl

theorem Apart.grows {first second later other : List O} (apart : Apart first second) (left : first <+: later)
    (right : second <+: other) : Apart later other := by
  constructor
  · intro within
    rcases List.prefix_or_prefix_of_prefix (left.trans within) right with shorter | longer
    · exact apart.left shorter
    · exact apart.right longer
  · intro within
    rcases List.prefix_or_prefix_of_prefix (right.trans within) left with shorter | longer
    · exact apart.right shorter
    · exact apart.left longer

/-- What is written after equal outputs tells them apart, if it is as much and not the same. -/
theorem apart_append {before first second : List O} (size : first.length = second.length) (different : first ≠ second) :
    Apart (before ++ first) (before ++ second) := by
  constructor
  · intro within
    exact different (((List.prefix_append_right_inj before).mp within).eq_of_length size)
  · intro within
    exact different (((List.prefix_append_right_inj before).mp within).eq_of_length size.symm).symm

/-- Actions that change nothing of a view, while the others act on the view as on the state. -/
structure Unseen (step : S → A → Option S) (inv : S → Prop) (view : S → S) (kept : A → Bool) : Prop where
  keeps : ∀ s action t, inv s → step s action = some t → inv t
  acts : ∀ s action t, inv s → kept action = true → step s action = some t → step (view s) action = some (view t)
  hides : ∀ s action t, inv s → kept action = false → step s action = some t → view t = view s

theorem Unseen.erased {step : S → A → Option S} {inv : S → Prop} {view : S → S} {kept : A → Bool}
    (unseen : Unseen step inv view kept) {s : S} (holds : inv s) {actions : List A} (executes : Executes step Free s actions) :
    Executes step Free (view s) (actions.filter kept) ∧
      final step (view s) (actions.filter kept) = view (final step s actions) := by
  induction actions generalizing s with
  | nil => exact ⟨trivial,rfl⟩
  | cons action rest ih =>
    obtain ⟨_,t,moved,later⟩ := executes
    have whole : final step s (action :: rest) = final step t rest := by rw [final,Option.mem_def.mp moved]
    obtain ⟨executes,same⟩ := ih (unseen.keeps s action t holds moved) later
    rw [whole]
    cases seen : kept action with
    | false =>
      rw [List.filter_cons_of_neg (by simp [seen]),← unseen.hides s action t holds seen moved]
      exact ⟨executes,same⟩
    | true =>
      have acts := unseen.acts s action t holds seen moved
      rw [List.filter_cons_of_pos seen]
      refine ⟨⟨trivial,view t,acts,executes⟩,?_⟩
      rw [final,acts]
      exact same

end PdaProxy.Semantics.Noninterference
