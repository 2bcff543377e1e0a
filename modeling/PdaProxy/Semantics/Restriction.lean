import Mathlib.Data.List.AList

/-! A finite map and a part of it, which has the entries of some of its keys. What is written
at one of these keys is written to both, what is written elsewhere leaves the part alone. -/
namespace PdaProxy.Semantics.Restriction

variable {K V : Type} [DecidableEq K]

def Restricts (kept : K → Bool) (whole part : AList fun _ : K => V) : Prop :=
  ∀ key, part.lookup key = if kept key then whole.lookup key else none

variable {kept : K → Bool} {whole part : AList fun _ : K => V} {key : K}

theorem restricts_empty : Restricts kept (∅ : AList fun _ : K => V) ∅ := by
  intro key
  simp

theorem Restricts.lookup (restricts : Restricts kept whole part) (inside : kept key = true) :
    part.lookup key = whole.lookup key := by
  rw [restricts key,if_pos inside]

theorem Restricts.insert_inside (restricts : Restricts kept whole part) (inside : kept key = true) (value : V) :
    Restricts kept (whole.insert key value) (part.insert key value) := by
  intro other
  by_cases same : other = key
  · subst same
    rw [AList.lookup_insert,AList.lookup_insert,if_pos inside]
  · rw [AList.lookup_insert_ne same,AList.lookup_insert_ne same]
    exact restricts other

theorem Restricts.erase (restricts : Restricts kept whole part) : Restricts kept (whole.erase key) (part.erase key) := by
  intro other
  by_cases same : other = key
  · subst same
    rw [AList.lookup_erase,AList.lookup_erase,ite_self]
  · rw [AList.lookup_erase_ne same,AList.lookup_erase_ne same]
    exact restricts other

theorem Restricts.of_others {after : AList fun _ : K => V} (restricts : Restricts kept whole part)
    (outside : kept key = false) (others : ∀ other, other ≠ key → after.lookup other = whole.lookup other) :
    Restricts kept after part := by
  intro other
  by_cases same : other = key
  · subst same
    rw [restricts other,outside]
    rfl
  · rw [restricts other,others other same]

theorem Restricts.insert_outside (restricts : Restricts kept whole part) (outside : kept key = false) (value : V) :
    Restricts kept (whole.insert key value) part :=
  restricts.of_others outside fun _ different => AList.lookup_insert_ne different

theorem Restricts.erase_outside (restricts : Restricts kept whole part) (outside : kept key = false) :
    Restricts kept (whole.erase key) part :=
  restricts.of_others outside fun _ different => AList.lookup_erase_ne different

theorem Restricts.eq_empty (restricts : Restricts kept (∅ : AList fun _ : K => V) part) : part = ∅ := by
  apply AList.ext
  cases entries : part.entries with
  | nil => rfl
  | cons entry rest =>
    have member : entry.1 ∈ part := by simp [AList.mem_keys,AList.keys,entries]
    have absent := restricts entry.1
    rw [AList.lookup_empty,ite_self,AList.lookup_eq_none] at absent
    exact absurd member absent

end PdaProxy.Semantics.Restriction
