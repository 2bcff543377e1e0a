import Mathlib.Data.List.Forall2

/-! Computations that give a value or an error, or end without either: what a sequence of
them gives, and a loop over a list that stops at the first element it cannot handle. -/
namespace PdaProxy.Semantics.Outcome

variable {E A B : Type}

/-- The computation comes to a value or to an error. -/
def Settles (x : ExceptT E Option A) : Prop := (∃ a, x = pure a) ∨ ∃ e, x = throw e

theorem settles_pure (a : A) : Settles (pure a : ExceptT E Option A) := .inl ⟨a,rfl⟩

theorem settles_throw (e : E) : Settles (throw e : ExceptT E Option A) := .inr ⟨e,rfl⟩

theorem settles_lift (result : Except E A) : Settles (liftM result : ExceptT E Option A) := by
  cases result with
  | error e => exact settles_throw e
  | ok a => exact settles_pure a

theorem throw_bind (e : E) (f : A → ExceptT E Option B) : (throw e : ExceptT E Option A) >>= f = throw e := rfl

theorem pure_inj {a b : A} (same : (pure a : ExceptT E Option A) = pure b) : a = b :=
  Except.ok.inj (Option.some.inj same)

theorem pure_ne_throw (a : A) (e : E) : (pure a : ExceptT E Option A) ≠ throw e := by
  intro same
  cases Option.some.inj same

theorem lift_eq_pure {result : Except E A} {a : A} :
    (liftM result : ExceptT E Option A) = pure a ↔ result = .ok a := by
  constructor
  · intro same
    cases result with
    | error e => exact absurd same.symm (pure_ne_throw a e)
    | ok b => rw [pure_inj same]
  · intro same
    rw [same]
    rfl

theorem bind_eq_pure {x : ExceptT E Option A} {f : A → ExceptT E Option B} {b : B} :
    x >>= f = pure b ↔ ∃ a, x = pure a ∧ f a = pure b := by
  constructor
  · intro same
    cases x with
    | none => cases same
    | some result =>
      cases result with
      | error e => exact absurd same.symm (pure_ne_throw b e)
      | ok a => exact ⟨a,rfl,same⟩
  · intro parts
    obtain ⟨a,first,second⟩ := parts
    rw [first,pure_bind,second]

theorem Settles.bind {x : ExceptT E Option A} {f : A → ExceptT E Option B} (first : Settles x)
    (second : ∀ a, x = pure a → Settles (f a)) : Settles (x >>= f) := by
  obtain ⟨a,same⟩ | ⟨e,same⟩ := first
  · rw [same,pure_bind]
    exact second a same
  · rw [same,throw_bind]
    exact settles_throw e

/-- A loop over the elements of a list and their positions. -/
def mapFrom (f : Nat → A → ExceptT E Option B) (position : Nat) : List A → ExceptT E Option (List B)
  | [] => return []
  | item :: others => do
    let result ← f position item
    let following ← mapFrom f (position + 1) others
    return result :: following

theorem mapFrom_eq_pure {f : Nat → A → ExceptT E Option B} {position : Nat} {items : List A} {results : List B} :
    mapFrom f position items = pure results ↔
      List.Forall₂ (fun entry result => f entry.2 entry.1 = pure result) (items.zipIdx position) results := by
  induction items generalizing position results with
  | nil =>
    simp only [mapFrom,List.zipIdx_nil,List.forall₂_nil_left_iff]
    exact ⟨fun same => (pure_inj same).symm,fun same => by rw [same]⟩
  | cons item others ih =>
    simp only [mapFrom,List.zipIdx_cons,bind_eq_pure,ih,List.forall₂_cons_left_iff]
    constructor
    · intro looped
      obtain ⟨result,first,following,rest,same⟩ := looped
      exact ⟨result,following,first,rest,(pure_inj same).symm⟩
    · intro related
      obtain ⟨result,following,first,rest,same⟩ := related
      exact ⟨result,first,following,rest,by rw [same]⟩

theorem mapFrom_settles {f : Nat → A → ExceptT E Option B} {position : Nat} {items : List A}
    (each : ∀ entry ∈ items.zipIdx position, Settles (f entry.2 entry.1)) : Settles (mapFrom f position items) := by
  induction items generalizing position with
  | nil => exact settles_pure []
  | cons item others ih =>
    rw [List.zipIdx_cons] at each
    have first : Settles (f position item) := each (item,position) (List.mem_cons_self ..)
    have rest : Settles (mapFrom f (position + 1) others) :=
      ih fun entry member => each entry (List.mem_cons_of_mem _ member)
    apply first.bind
    intro result _
    apply rest.bind
    intro following _
    exact settles_pure (result :: following)

theorem mapFrom_total {f : Nat → A → ExceptT E Option B} {position : Nat} {items : List A} :
    (∃ results, mapFrom f position items = pure results) ↔
      ∀ entry ∈ items.zipIdx position, ∃ result, f entry.2 entry.1 = pure result := by
  induction items generalizing position with
  | nil => exact ⟨fun _ entry member => (nomatch member),fun _ => ⟨[],rfl⟩⟩
  | cons item others ih =>
    simp only [List.zipIdx_cons,List.forall_mem_cons,← ih,mapFrom,bind_eq_pure]
    constructor
    · intro looped
      obtain ⟨_,result,first,following,rest,_⟩ := looped
      exact ⟨⟨result,first⟩,following,rest⟩
    · intro each
      obtain ⟨⟨result,first⟩,following,rest⟩ := each
      exact ⟨_,result,first,following,rest,rfl⟩

end PdaProxy.Semantics.Outcome
