import Mathlib.Data.List.Forall2

/-! Pools of threads kept as lists: the thread at an index, and what replacing or removing
it does to the rest. -/
namespace PdaProxy.Semantics.Pool

variable {T : Type}

/-- The threads before and after the one at an index stay where they are when it is
replaced or removed. -/
theorem split_at {pool : List T} {i : Nat} {thread : T} (found : pool[i]? = some thread) :
    ∃ before after, pool = before ++ thread :: after ∧
      (∀ next, pool.set i next = before ++ next :: after) ∧ pool.eraseIdx i = before ++ after := by
  obtain ⟨bound,rfl⟩ := List.getElem?_eq_some_iff.mp found
  refine ⟨pool.take i,pool.drop (i + 1),?_,?_,?_⟩
  · rw [List.getElem_cons_drop,List.take_append_drop]
  · intro next
    rw [List.set_eq_take_append_cons_drop,if_pos bound]
  · rw [List.eraseIdx_eq_take_drop_succ]

/-- The thread between two parts of a pool is at the length of the first. -/
theorem at_split (before after : List T) (thread next : T) :
    (before ++ thread :: after)[before.length]? = some thread ∧
      (before ++ thread :: after).set before.length next = before ++ next :: after ∧
      (before ++ thread :: after).eraseIdx before.length = before ++ after := by
  refine ⟨by simp,by simp,?_⟩
  rw [List.eraseIdx_append_of_length_le (Nat.le_refl _),Nat.sub_self,List.eraseIdx_cons_zero]

/-- However the pool is split at a thread of an index, the rest are the others. -/
theorem others_perm {pool before after : List T} {i : Nat} {thread : T} (found : pool[i]? = some thread)
    (split : pool = before ++ thread :: after) : (pool.eraseIdx i).Perm (before ++ after) := by
  obtain ⟨first,last,here,_,removed⟩ := split_at found
  have moved : (thread :: (first ++ last)).Perm (thread :: (before ++ after)) := by
    calc (thread :: (first ++ last)).Perm (first ++ thread :: last) := List.perm_middle.symm
      _ = before ++ thread :: after := by rw [← here,split]
      (before ++ thread :: after).Perm _ := List.perm_middle
  rw [removed]
  exact moved.cons_inv

/-! Where a thread of a pool is after one of them is removed or replaced. -/
section
variable {before after : List T} {thread next other : T}

theorem mem_removed (member : other ∈ before ++ after) : other ∈ before ++ thread :: after := by
  simp only [List.mem_append,List.mem_cons] at member ⊢
  exact member.imp_right .inr

theorem mem_others (member : other ∈ before ++ thread :: after) : other = thread ∨ other ∈ before ++ after := by
  simp only [List.mem_append,List.mem_cons] at member ⊢
  rcases member with earlier | same | later
  · exact .inr (.inl earlier)
  · exact .inl same
  · exact .inr (.inr later)

theorem mem_rest (different : other ≠ thread) : other ∈ before ++ after ↔ other ∈ before ++ thread :: after :=
  ⟨mem_removed,fun member => (mem_others member).resolve_left different⟩

theorem mem_replaced (member : other ∈ before ++ next :: after) : other ∈ before ++ thread :: after ∨ other = next :=
  (mem_others member).symm.imp_left mem_removed

end

theorem forall_concat {P : T → Prop} {pool : List T} {last : T} (old : ∀ thread ∈ pool, P thread) (new : P last) :
    ∀ thread ∈ pool ++ [last], P thread :=
  List.forall_mem_append.mpr ⟨old,List.forall_mem_singleton.mpr new⟩

/-! Two pools whose threads correspond. -/
section
variable {U : Type} {R : T → U → Prop} {pool : List T} {other : List U}

theorem corresponds_at (corresponds : List.Forall₂ R pool other) (i : Nat) :
    Option.Rel R pool[i]? other[i]? := by
  induction corresponds generalizing i with
  | nil => exact .none
  | cons same _ ih =>
    cases i with
    | zero => exact .some same
    | succ i => exact ih i

theorem corresponds_set (corresponds : List.Forall₂ R pool other) (i : Nat) {thread : T} {next : U}
    (same : R thread next) : List.Forall₂ R (pool.set i thread) (other.set i next) := by
  induction corresponds generalizing i with
  | nil => exact .nil
  | cons head tail ih =>
    cases i with
    | zero => exact .cons same tail
    | succ i => exact .cons head (ih i)

theorem corresponds_eraseIdx (corresponds : List.Forall₂ R pool other) (i : Nat) :
    List.Forall₂ R (pool.eraseIdx i) (other.eraseIdx i) := by
  induction corresponds generalizing i with
  | nil => exact .nil
  | cons head tail ih =>
    cases i with
    | zero => exact tail
    | succ i => exact .cons head (ih i)

end

end PdaProxy.Semantics.Pool
