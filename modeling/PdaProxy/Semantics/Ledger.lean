import Mathlib.Data.Multiset.Filter
import Mathlib.Data.Set.Insert
import PdaProxy.Semantics.Transition

/-! A ledger of keyed work: which keys are queued, which have a result, and the work items
there are for them. What it holds is not at once safe: it can be taken back to what it held
before some of the latest changes. The ledger says what kinds of operations there are, not when
one of them takes place, and the rules below say which discipline of its users keeps which
invariant. -/
namespace PdaProxy.Semantics
open PdaProxy.Semantics.Transition

structure Ledger (K V : Type) where
  queued : Set K
  finished : K → Option V
  items : Multiset K
  earlier : List (Set K × (K → Option V))

/-- `start` and `retry` add an item for a key, `finish` and `abandon` take one away. What is in
flight is gone after a `reset`, which makes all changes safe, and after a `rollback`, which takes
some of the latest back. -/
inductive Ledger.Operation (K V : Type)
  | start (key : K)
  | retry (key : K)
  | progress (key : K)
  | finish (key : K) (value : V)
  | abandon (key : K)
  | reset
  | rollback (lost : Nat)

namespace Ledger

variable {K V : Type}

def empty : Ledger K V := ⟨∅,fun _ => none,0,[]⟩

def contents (ledger : Ledger K V) : List (Set K × (K → Option V)) := (ledger.queued,ledger.finished) :: ledger.earlier

section
variable [DecidableEq K]

/-- A key's status moves to another tree or value; only work that has an item for it can
progress, finish or be abandoned. -/
def step (ledger : Ledger K V) : Operation K V → Option (Ledger K V)
  | .start key => some { ledger with
      queued := insert key ledger.queued
      items := key ::ₘ ledger.items
      earlier := ledger.contents }
  | .retry key => some {
      queued := insert key ledger.queued
      finished := Function.update ledger.finished key none
      items := key ::ₘ ledger.items
      earlier := ledger.contents }
  | .progress key =>
    if key ∈ ledger.items then some { ledger with
      queued := insert key ledger.queued
      finished := Function.update ledger.finished key none
      earlier := ledger.contents }
    else none
  | .finish key value =>
    if key ∈ ledger.items then some {
      queued := ledger.queued \ {key}
      finished := Function.update ledger.finished key (some value)
      items := ledger.items.erase key
      earlier := ledger.contents }
    else none
  | .abandon key =>
    if key ∈ ledger.items then some { ledger with items := ledger.items.erase key } else none
  | .reset => some { ledger with items := 0, earlier := [] }
  | .rollback lost => ledger.contents[lost]?.map fun found => ⟨found.1,found.2,0,[]⟩

/-- What a step leads to, with the item that it needs. -/
inductive Moved (ledger : Ledger K V) : Operation K V → Ledger K V → Prop
  | start (key) : Moved ledger (.start key)
      ⟨insert key ledger.queued,ledger.finished,key ::ₘ ledger.items,ledger.contents⟩
  | retry (key) : Moved ledger (.retry key)
      ⟨insert key ledger.queued,Function.update ledger.finished key none,key ::ₘ ledger.items,ledger.contents⟩
  | progress (key) (present : key ∈ ledger.items) : Moved ledger (.progress key)
      ⟨insert key ledger.queued,Function.update ledger.finished key none,ledger.items,ledger.contents⟩
  | finish (key value) (present : key ∈ ledger.items) : Moved ledger (.finish key value)
      ⟨ledger.queued \ {key},Function.update ledger.finished key (some value),ledger.items.erase key,ledger.contents⟩
  | abandon (key) (present : key ∈ ledger.items) : Moved ledger (.abandon key)
      { ledger with items := ledger.items.erase key }
  | reset : Moved ledger .reset { ledger with items := 0, earlier := [] }
  | rollback (lost found) (left : ledger.contents[lost]? = some found) :
      Moved ledger (.rollback lost) ⟨found.1,found.2,0,[]⟩

theorem step_moved {ledger after : Ledger K V} {operation : Operation K V}
    (stepped : ledger.step operation = some after) : ledger.Moved operation after := by
  cases operation with
  | start key => cases stepped; exact .start key
  | retry key => cases stepped; exact .retry key
  | progress key =>
    obtain ⟨present,made⟩ := Option.ite_none_right_eq_some.mp stepped
    cases made
    exact .progress key present
  | finish key value =>
    obtain ⟨present,made⟩ := Option.ite_none_right_eq_some.mp stepped
    cases made
    exact .finish key value present
  | abandon key =>
    obtain ⟨present,made⟩ := Option.ite_none_right_eq_some.mp stepped
    cases made
    exact .abandon key present
  | reset => cases stepped; exact .reset
  | rollback lost =>
    obtain ⟨found,left,made⟩ := Option.map_eq_some_iff.mp stepped
    cases made
    exact .rollback lost found left

end

def Registered (ledger : Ledger K V) : Prop := ∀ key ∈ ledger.items, key ∈ ledger.queued ∨ ledger.finished key ≠ none

def Attended (ledger : Ledger K V) : Prop := ∀ key ∈ ledger.queued, key ∈ ledger.items

structure SingleFlight (ledger : Ledger K V) : Prop where
  unique : ledger.items.Nodup
  queued : ∀ key ∈ ledger.items, key ∈ ledger.queued

def Exclusive (ledger : Ledger K V) : Prop :=
  ∀ content ∈ ledger.contents, ∀ key ∈ content.1, content.2 key = none

theorem Exclusive.unfinished {ledger : Ledger K V} (exclusive : ledger.Exclusive) {key : K} (queued : key ∈ ledger.queued) :
    ledger.finished key = none :=
  exclusive _ List.mem_cons_self key queued

structure Orderly (ledger : Ledger K V) : Prop where
  single : ledger.SingleFlight
  exclusive : ledger.Exclusive

structure Settled (key : K) (value : V) (ledger : Ledger K V) : Prop where
  orderly : ledger.Orderly
  stored : ledger.finished key = some value

def Keeps (ledger : Ledger K V) : Operation K V → Prop
  | .abandon key => key ∉ ledger.queued
  | .reset | .rollback _ => False
  | .start _ | .retry _ | .progress _ | .finish _ _ => True

/-- No item is added for a key that is queued already. -/
def Claims (ledger : Ledger K V) : Operation K V → Prop
  | .start key | .retry key => key ∉ ledger.queued
  | .progress _ | .finish _ _ | .abandon _ | .reset | .rollback _ => True

/-- No work is started on a key that has a result. -/
def Fresh (ledger : Ledger K V) : Operation K V → Prop
  | .start key => ledger.finished key = none
  | .retry _ | .progress _ | .finish _ _ | .abandon _ | .reset | .rollback _ => True

/-- Work is started only on unknown keys and retried only where the result is not terminal. -/
def Disciplined (terminal : V → Prop) (ledger : Ledger K V) : Operation K V → Prop
  | .start key => key ∉ ledger.queued ∧ ledger.finished key = none
  | .retry key => ∃ value, ledger.finished key = some value ∧ ¬ terminal value
  | .progress _ | .finish _ _ | .abandon _ | .reset | .rollback _ => True

/-- Nothing is taken back. -/
def Operation.Lasting : Operation K V → Prop
  | .rollback lost => lost = 0
  | .start _ | .retry _ | .progress _ | .finish _ _ | .abandon _ | .reset => True

/-- The operation works on this key. -/
def Operation.On (key : K) : Operation K V → Prop
  | .start other | .retry other | .progress other | .finish other _ | .abandon other => other = key
  | .reset | .rollback _ => False

variable {ledger after : Ledger K V} {operation : Operation K V}

/-- A retried key has a result, so where the trees are exclusive it is not queued. -/
theorem Disciplined.claims {terminal : V → Prop} (exclusive : ledger.Exclusive)
    (disciplined : ledger.Disciplined terminal operation) : ledger.Claims operation := by
  cases operation with
  | start key => exact disciplined.1
  | retry key =>
    obtain ⟨value,stored,_⟩ := disciplined
    intro queued
    rw [exclusive.unfinished queued] at stored
    cases stored
  | progress | finish | abandon | reset | rollback => trivial

theorem Disciplined.fresh {terminal : V → Prop} (disciplined : ledger.Disciplined terminal operation) :
    ledger.Fresh operation := by
  cases operation with
  | start key => exact disciplined.2
  | retry | progress | finish | abandon | reset | rollback => trivial

theorem Settled.idle {key : K} {value : V} (settled : ledger.Settled key value) : key ∉ ledger.items := by
  intro item
  have unfinished := settled.orderly.exclusive.unfinished (settled.orderly.single.queued key item)
  rw [settled.stored] at unfinished
  cases unfinished

theorem registered_empty : (empty : Ledger K V).Registered := by simp [Registered,empty]

theorem attended_empty : (empty : Ledger K V).Attended := by simp [Attended,empty]

theorem singleFlight_empty : (empty : Ledger K V).SingleFlight := ⟨Multiset.nodup_zero,by simp [empty]⟩

theorem exclusive_empty : (empty : Ledger K V).Exclusive := by simp [Exclusive,contents,empty]

theorem orderly_empty : (empty : Ledger K V).Orderly := ⟨singleFlight_empty,exclusive_empty⟩

variable [DecidableEq K]

theorem items_elsewhere {key other : K} (on : operation.On key) (different : other ≠ key)
    (stepped : ledger.step operation = some after) : other ∈ after.items ↔ other ∈ ledger.items := by
  cases step_moved stepped with
  | start _ | retry _ =>
    cases on
    rw [Multiset.mem_cons,or_iff_right different]
  | progress => exact .rfl
  | finish _ _ _ | abandon _ _ =>
    cases on
    exact Multiset.mem_erase_of_ne different
  | reset | rollback => exact on.elim

theorem registered_step (registered : ledger.Registered) (stepped : ledger.step operation = some after) :
    after.Registered := by
  intro other item
  cases step_moved stepped with
  | start key =>
    rcases Multiset.mem_cons.mp item with rfl | old
    · exact .inl (.inl rfl)
    · exact (registered other old).imp .inr id
  | retry key =>
    by_cases same : other = key
    · exact .inl (.inl same)
    · have old : other ∈ ledger.items := (Multiset.mem_cons.mp item).resolve_left same
      exact (registered other old).imp .inr (by simp [same])
  | progress key present =>
    by_cases same : other = key
    · exact .inl (.inl same)
    · exact (registered other item).imp .inr (by simp [same])
  | finish key value present =>
    by_cases same : other = key
    · exact .inr (by simp [same])
    · have old : other ∈ ledger.items := Multiset.mem_of_mem_erase item
      exact (registered other old).imp (fun queued => ⟨queued,same⟩) (by simp [same])
  | abandon key present => exact registered other (Multiset.mem_of_mem_erase item)
  | reset | rollback => simp at item

theorem attended_step (attended : ledger.Attended) (kept : ledger.Keeps operation)
    (stepped : ledger.step operation = some after) : after.Attended := by
  intro other queued
  cases step_moved stepped with
  | start key | retry key =>
    rcases queued with rfl | old
    · exact Multiset.mem_cons_self other _
    · exact Multiset.mem_cons_of_mem (attended other old)
  | progress key present =>
    rcases queued with rfl | old
    · exact present
    · exact attended other old
  | finish key value present =>
    obtain ⟨old,different⟩ := queued
    exact (Multiset.mem_erase_of_ne different).mpr (attended other old)
  | abandon key present =>
    have different : other ≠ key := fun same => kept (same ▸ queued)
    exact (Multiset.mem_erase_of_ne different).mpr (attended other queued)
  | reset | rollback => exact kept.elim

theorem singleFlight_step (single : ledger.SingleFlight) (claimed : ledger.Claims operation)
    (stepped : ledger.step operation = some after) : after.SingleFlight := by
  cases step_moved stepped with
  | start key | retry key =>
    have absent : key ∉ ledger.items := fun item => claimed (single.queued key item)
    refine ⟨Multiset.nodup_cons.mpr ⟨absent,single.unique⟩,?_⟩
    intro other item
    rcases Multiset.mem_cons.mp item with rfl | old
    · exact .inl rfl
    · exact .inr (single.queued other old)
  | progress key present => exact ⟨single.unique,fun other item => .inr (single.queued other item)⟩
  | finish key value present =>
    refine ⟨single.unique.erase key,?_⟩
    intro other item
    obtain ⟨different,old⟩ := single.unique.mem_erase_iff.mp item
    exact ⟨single.queued other old,different⟩
  | abandon key present =>
    exact ⟨single.unique.erase key,fun other item => single.queued other (Multiset.mem_of_mem_erase item)⟩
  | reset | rollback => exact ⟨Multiset.nodup_zero,fun other item => by simp at item⟩

theorem exclusive_step (exclusive : ledger.Exclusive) (fresh : ledger.Fresh operation)
    (stepped : ledger.step operation = some after) : after.Exclusive := by
  -- What was held before the step is one of the earlier contents now.
  have changed {queued : Set K} {finished : K → Option V} {items : Multiset K}
      (now : ∀ key ∈ queued, finished key = none) : Exclusive ⟨queued,finished,items,ledger.contents⟩ :=
    List.forall_mem_cons.mpr ⟨now,exclusive⟩
  cases step_moved stepped with
  | start key =>
    refine changed fun other queued => ?_
    rcases queued with rfl | old
    · exact fresh
    · exact exclusive.unfinished old
  | retry key | progress key =>
    refine changed fun other queued => ?_
    by_cases same : other = key
    · simp [same]
    · have unfinished := exclusive.unfinished (queued.resolve_left same)
      simp [same,unfinished]
  | finish key value present =>
    refine changed fun other queued => ?_
    obtain ⟨old,different⟩ := queued
    have apart : other ≠ key := different
    have unfinished := exclusive.unfinished old
    simp [apart,unfinished]
  | abandon key present => exact exclusive
  | reset => exact List.forall_mem_singleton.mpr fun other queued => exclusive.unfinished queued
  | rollback lost found left => exact List.forall_mem_singleton.mpr (exclusive found (List.mem_of_getElem? left))

theorem orderly_step {terminal : V → Prop} (orderly : ledger.Orderly)
    (disciplined : ledger.Disciplined terminal operation) (stepped : ledger.step operation = some after) :
    after.Orderly := by
  have claimed := disciplined.claims orderly.exclusive
  exact ⟨singleFlight_step orderly.single claimed stepped,exclusive_step orderly.exclusive disciplined.fresh stepped⟩

/-- Nobody has an item for a settled key, so only a retry could take its value away. -/
theorem settled_step {terminal : V → Prop} {key : K} {value : V} (final : terminal value)
    (settled : ledger.Settled key value) (disciplined : ledger.Disciplined terminal operation) (lasting : operation.Lasting)
    (stepped : ledger.step operation = some after) : after.Settled key value := by
  refine ⟨orderly_step settled.orderly disciplined stepped,?_⟩
  have stored := settled.stored
  cases step_moved stepped with
  | start other | reset => exact stored
  | rollback lost found left =>
    obtain rfl : lost = 0 := lasting
    obtain rfl := Option.some.inj left
    exact stored
  | retry other =>
    obtain ⟨old,present,retryable⟩ := disciplined
    have different : key ≠ other := by
      intro same
      rw [← same,stored] at present
      cases present
      exact retryable final
    simpa [different] using stored
  | progress other present | finish other _ present | abandon other present =>
    have different : key ≠ other := fun same => settled.idle (same ▸ present)
    simpa [different] using stored

theorem settled_reaches {terminal : V → Prop} {start : Ledger K V} {key : K} {value : V}
    (run : Reaches step (fun before operation => before.Disciplined terminal operation ∧ operation.Lasting) start ledger)
    (settled : start.Settled key value) (final : terminal value) : ledger.Settled key value := by
  apply run.invariant _ settled
  intro before operation after kept allowed stepped
  exact settled_step final kept allowed.1 allowed.2 stepped

end Ledger

end PdaProxy.Semantics
