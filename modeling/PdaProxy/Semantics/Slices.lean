import Mathlib.Data.Vector.Basic

/-! Slices whose bounds are checked when they are taken. `none` is the panic of a bound
past the end or of a copy between different lengths. -/
namespace PdaProxy.Semantics.Slices

variable {A : Type}

/-- Both sides of a position. -/
def splitAt (data : List A) (middle : Nat) : Option (List A × List A) :=
  if middle ≤ data.length then some (data.take middle,data.drop middle) else none

/-- The elements from `start` up to `stop`. -/
def subslice (data : List A) (start stop : Nat) : Option (List A) :=
  if start ≤ stop ∧ stop ≤ data.length then some ((data.take stop).drop start) else none

/-- Overwrite a block with a slice of its own length. -/
def copyFromSlice {n : Nat} (target : List.Vector A n) (source : List A) : Option (List.Vector A n) :=
  if same : source.length = target.toList.length then some ⟨source,same.trans target.toList_length⟩
  else none

/-- Take a slice for a block. -/
def tryInto (n : Nat) (source : List A) : Option (List.Vector A n) :=
  if same : source.length = n then some ⟨source,same⟩ else none

theorem splitAt_eq {data : List A} {middle : Nat} (bound : middle ≤ data.length) :
    splitAt data middle = some (data.take middle,data.drop middle) := if_pos bound

theorem subslice_eq {data : List A} {start stop : Nat} (order : start ≤ stop) (bound : stop ≤ data.length) :
    subslice data start stop = some ((data.take stop).drop start) := if_pos ⟨order,bound⟩

theorem copyFromSlice_eq {n : Nat} (target : List.Vector A n) {source : List A} (same : source.length = n) :
    copyFromSlice target source = some ⟨source,same⟩ := dif_pos (same.trans target.toList_length.symm)

theorem exists_block {n : Nat} {source : List A} (same : source.length = n) :
    ∃ block : List.Vector A n, block.toList = source := ⟨⟨source,same⟩,rfl⟩

theorem tryInto_toList {n : Nat} (block : List.Vector A n) : tryInto n block.toList = some block :=
  dif_pos block.toList_length

theorem tryInto_none {n : Nat} {source : List A} (other : source.length ≠ n) : tryInto n source = none :=
  dif_neg other

end PdaProxy.Semantics.Slices
