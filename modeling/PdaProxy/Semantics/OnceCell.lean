import Mathlib.Logic.Basic

/-! A cell that is filled once. One attempt at a time works on its value, and one that fails
or is given up leaves the cell empty for the next. -/
namespace PdaProxy.Semantics.OnceCell

inductive Cell (W V : Type)
  | empty
  | initialising (attempt : W)
  | filled (value : V)

/-- What can happen to the attempt at a cell. -/
inductive Event (W V E : Type)
  | enter (attempt : W)
  | advance (attempt : W)
  | finish (result : Except E V)
  | abandon

variable {W V E : Type}

def Cell.step : Cell W V → Event W V E → Option (Cell W V)
  | .empty, .enter attempt => some (.initialising attempt)
  | .initialising _, .advance attempt => some (.initialising attempt)
  | .initialising _, .finish (.ok value) => some (.filled value)
  | .initialising _, .finish (.error _) | .initialising _, .abandon => some .empty
  | _, _ => none

def Cell.Holds (working : W → Prop) (good : V → Prop) : Cell W V → Prop
  | .empty => True
  | .initialising attempt => working attempt
  | .filled value => good value

def Event.Brings (working : W → Prop) (good : V → Prop) : Event W V E → Prop
  | .enter attempt | .advance attempt => working attempt
  | .finish (.ok value) => good value
  | .finish (.error _) | .abandon => True

variable {cell after : Cell W V} {event : Event W V E} {working : W → Prop} {good : V → Prop}

/-- A cell is as good as the last event on it. -/
theorem step_holds (moved : cell.step event = some after) (brings : event.Brings working good) :
    after.Holds working good := by
  unfold Cell.step at moved
  split at moved
  · cases moved; exact brings
  · cases moved; exact brings
  · cases moved; exact brings
  · cases moved; trivial
  · cases moved; trivial
  · contradiction

theorem failed_empty {e : E} (moved : cell.step (Event.finish (.error e) : Event W V E) = some after) : after = .empty := by
  cases cell with
  | initialising attempt => exact (Option.some.inj moved).symm
  | empty | filled _ => cases moved

end PdaProxy.Semantics.OnceCell
