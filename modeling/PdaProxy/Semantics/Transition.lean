import Mathlib.Logic.Relation

/-! Partial transition functions, the runs all of whose steps a guard allows, and
the induction rules that carry an invariant along them. No particular system is
mentioned here. -/
namespace PdaProxy.Semantics.Transition

variable {S A : Type}

def Next (step : S → A → Option S) (guard : S → A → Prop) (before after : S) : Prop :=
  ∃ action, guard before action ∧ step before action = some after

/-- Runs of any length all of whose steps the guard allows. -/
abbrev Reaches (step : S → A → Option S) (guard : S → A → Prop) : S → S → Prop :=
  Relation.ReflTransGen (Next step guard)

def Free : S → A → Prop := fun _ _ => True

instance (s : S) (action : A) : Decidable (Free s action) := inferInstanceAs (Decidable True)

theorem Reaches.weaken {step : S → A → Option S} {guard weaker : S → A → Prop} {s t : S}
    (run : Reaches step guard s t) (implied : ∀ s action, guard s action → weaker s action) :
    Reaches step weaker s t := by
  apply Relation.ReflTransGen.mono _ s t run
  intro before after next
  obtain ⟨action,allowed,moved⟩ := next
  exact ⟨action,implied before action allowed,moved⟩

/-- A property that every allowed step preserves holds along the whole run. -/
theorem Reaches.invariant {step : S → A → Option S} {guard : S → A → Prop} {inv : S → Prop} {s t : S}
    (run : Reaches step guard s t)
    (preserved : ∀ u action v, inv u → guard u action → step u action = some v → inv v)
    (initial : inv s) : inv t := by
  induction run with
  | refl => exact initial
  | tail _ last ih =>
    obtain ⟨action,allowed,moved⟩ := last
    exact preserved _ action _ ih allowed moved

/-- The same rule where an invariant already established of the run may be used
at every step. -/
theorem Reaches.invariant_with {step : S → A → Option S} {guard : S → A → Prop}
    {known inv : S → Prop} {s t : S} (run : Reaches step guard s t)
    (established : ∀ u, Reaches step guard s u → known u)
    (preserved : ∀ u action v, known u → inv u → guard u action → step u action = some v → inv v)
    (initial : inv s) : inv t := by
  induction run with
  | refl => exact initial
  | tail before last ih =>
    obtain ⟨action,allowed,moved⟩ := last
    exact preserved _ action _ (established _ before) ih allowed moved

/-- A guard that an established invariant implies holds along the run. -/
theorem Reaches.weaken_with {step : S → A → Option S} {guard weaker : S → A → Prop} {known : S → Prop} {s t : S}
    (run : Reaches step guard s t) (established : ∀ u, Reaches step guard s u → known u)
    (implied : ∀ u action, known u → guard u action → weaker u action) : Reaches step weaker s t := by
  induction run with
  | refl => exact .refl
  | tail before last ih =>
    obtain ⟨action,allowed,moved⟩ := last
    exact ih.tail ⟨action,implied _ action (established _ before) allowed,moved⟩

/-- Each allowed step of the run moves an abstraction of the state along a relation,
or leaves it in place: the run is a run of the relation. -/
theorem Reaches.simulates {P : Type} {step : S → A → Option S} {guard : S → A → Prop}
    {known : S → Prop} {s t : S} (run : Reaches step guard s t) (view : S → P) (moves : P → P → Prop)
    (established : ∀ u, Reaches step guard s u → known u)
    (simulated : ∀ u action v, known u → guard u action → step u action = some v →
      view v = view u ∨ moves (view u) (view v)) :
    Relation.ReflTransGen moves (view s) (view t) := by
  induction run with
  | refl => exact .refl
  | tail before last ih =>
    obtain ⟨action,allowed,moved⟩ := last
    rcases simulated _ action _ (established _ before) allowed moved with same | advanced
    · exact same ▸ ih
    · exact ih.tail advanced

def Executes (step : S → A → Option S) (guard : S → A → Prop) : S → List A → Prop
  | _, [] => True
  | s, action :: rest => guard s action ∧ ∃ t ∈ step s action, Executes step guard t rest

instance Executes.decidable (step : S → A → Option S) (guard : S → A → Prop)
    [∀ s action, Decidable (guard s action)] : ∀ s actions, Decidable (Executes step guard s actions)
  | _, [] => inferInstanceAs (Decidable True)
  | s, action :: rest =>
    have (t : S) : Decidable (Executes step guard t rest) := Executes.decidable step guard t rest
    inferInstanceAs (Decidable (guard s action ∧ ∃ t ∈ step s action, Executes step guard t rest))

theorem Executes.guarded {step : S → A → Option S} {guard stronger : S → A → Prop} {s : S} {actions : List A}
    (executes : Executes step guard s actions) (allowed : ∀ s, ∀ action ∈ actions, stronger s action) :
    Executes step stronger s actions := by
  induction actions generalizing s with
  | nil => trivial
  | cons action rest ih =>
    obtain ⟨_,t,moved,later⟩ := executes
    refine ⟨allowed s action List.mem_cons_self,t,moved,ih later fun s other member => ?_⟩
    exact allowed s other (List.mem_cons_of_mem _ member)

def final (step : S → A → Option S) : S → List A → S
  | s, [] => s
  | s, action :: rest =>
    match step s action with
    | none => s
    | some t => final step t rest

theorem executes_append {step : S → A → Option S} {guard : S → A → Prop} {s : S} {first later : List A} :
    Executes step guard s (first ++ later) ↔ Executes step guard s first ∧ Executes step guard (final step s first) later := by
  induction first generalizing s with
  | nil => simp only [List.nil_append,Executes,final,true_and]
  | cons action rest ih =>
    simp only [List.cons_append,Executes,final,Option.mem_def]
    constructor
    · intro executes
      obtain ⟨allowed,t,moved,whole⟩ := executes
      rw [moved]
      exact ⟨⟨allowed,t,rfl,(ih.mp whole).1⟩,(ih.mp whole).2⟩
    · intro executes
      obtain ⟨⟨allowed,t,moved,here⟩,there⟩ := executes
      rw [moved] at there
      exact ⟨allowed,t,moved,ih.mpr ⟨here,there⟩⟩

theorem final_append {step : S → A → Option S} {guard : S → A → Prop} {s : S} {first : List A}
    (executes : Executes step guard s first) (later : List A) :
    final step s (first ++ later) = final step (final step s first) later := by
  induction first generalizing s with
  | nil => rfl
  | cons action rest ih =>
    obtain ⟨_,t,moved,whole⟩ := executes
    rw [Option.mem_def] at moved
    simp only [List.cons_append,final,moved]
    exact ih whole

theorem final_reaches {step : S → A → Option S} {guard : S → A → Prop} (s : S) (actions : List A)
    (executes : Executes step guard s actions) : Reaches step guard s (final step s actions) := by
  induction actions generalizing s with
  | nil => exact .refl
  | cons action rest ih =>
    obtain ⟨allowed,t,moved,later⟩ := executes
    have same : final step s (action :: rest) = final step t rest := by
      rw [final,Option.mem_def.mp moved]
    rw [same]
    exact .head ⟨action,allowed,moved⟩ (ih t later)

end PdaProxy.Semantics.Transition
