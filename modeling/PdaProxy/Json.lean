import PdaProxy.Semantics.Serialization

/-! JSON values as serde_json represents them, with the accessors the two HTTP handlers
use. Objects keep their members in the order of the underlying map. -/
namespace PdaProxy

/-- A number is kept as an unsigned or negative integer or as the bits of a float. -/
inductive Number
  | posInt (n : UInt64)
  | negInt (n : Int64)
  | float (bits : UInt64)
deriving DecidableEq

inductive Json
  | null
  | bool (b : Bool)
  | number (n : Number)
  | string (s : String)
  | array (items : List Json)
  | object (members : List (String × Json))

namespace Json

def member (name : String) (members : List (String × Json)) : Option Json :=
  (members.find? (fun pair => pair.1 == name)).map (·.2)

def get (value : Json) (name : String) : Option Json :=
  match value with
  | .object members => member name members
  | _ => none

def asStr : Json → Option String
  | .string s => some s
  | _ => none

def asArray : Json → Option (List Json)
  | .array items => some items
  | _ => none

/-- Overwriting a member that is present, as an assignment through `get_mut` does. -/
def setMember (name : String) (value : Json) : List (String × Json) → List (String × Json)
  | [] => []
  | pair :: rest => if pair.1 == name then (pair.1,value) :: rest else pair :: setMember name value rest

def set (target : Json) (name : String) (value : Json) : Json :=
  match target with
  | .object members => .object (setMember name value members)
  | other => other

theorem member_setMember (name : String) (value old : Json) (members : List (String × Json))
    (present : member name members = some old) : member name (setMember name value members) = some value := by
  induction members with
  | nil => simp [member] at present
  | cons pair rest ih =>
    by_cases same : pair.1 == name
    · simp [setMember,member,same]
    · have later : member name rest = some old := by simpa [member,List.find?_cons,same] using present
      simpa [setMember,member,List.find?_cons,same] using ih later

theorem member_setMember_ne (name other : String) (value : Json) (members : List (String × Json))
    (distinct : other ≠ name) : member other (setMember name value members) = member other members := by
  induction members with
  | nil => rfl
  | cons pair rest ih =>
    by_cases same : pair.1 == name
    · have differs : (pair.1 == other) = false := by
        simp only [beq_iff_eq] at same
        simp [same,Ne.symm distinct]
      simp [setMember,member,same,differs]
    · by_cases found : pair.1 == other
      · simp [setMember,member,same,found]
      · simpa [setMember,member,List.find?_cons,same,found] using ih

theorem get_set (target old value : Json) (name : String) (present : target.get name = some old) :
    (target.set name value).get name = some value := by
  cases target with
  | object members => exact member_setMember name value old members present
  | null | bool _ | number _ | string _ | array _ => cases present

theorem get_set_ne (target value : Json) (name other : String) (distinct : other ≠ name) :
    (target.set name value).get other = target.get other := by
  cases target with
  | object members => exact member_setMember_ne name other value members distinct
  | null | bool _ | number _ | string _ | array _ => rfl

end Json

end PdaProxy
