import AgentGateway.Binary64.Basic

/-!
# JSON values

The values of the wire format. A number is an integer of at most 64 bits or a floating point
number. The members of an object are kept in the order of their keys and each key stands once, so
two objects with the same members are equal.
-/

namespace AgentGateway

/-- A number: an integer between `-2^63` and `2^64 - 1`, or a floating point number. -/
inductive Json.Number where
  | integer (n : Int)
  | real (x : Binary64)
  deriving DecidableEq, Repr, Inhabited

inductive Json where
  | null
  | bool (b : Bool)
  | number (n : Json.Number)
  | string (s : String)
  | array (items : List Json)
  | object (members : List (String × Json))
  deriving Repr, Inhabited, BEq

namespace Json

abbrev Members := List (String × Json)

/-- Puts a member in the place of its key; a member that is there already is replaced. -/
def Members.insert (members : Members) (key : String) (value : Json) : Members :=
  match members with
  | [] => [(key, value)]
  | (k, v) :: rest =>
    if key < k then (key, value) :: (k, v) :: rest
    else if key = k then (key, value) :: rest
    else (k, v) :: Members.insert rest key value

def Members.get? (members : Members) (key : String) : Option Json := members.lookup key

/-- The object with the given members; of two with one key the later one counts. -/
def ofMembers (members : List (String × Json)) : Json :=
  .object (members.foldl (fun done m => Members.insert done m.1 m.2) [])

def get? : Json → String → Option Json
  | object members, key => members.lookup key
  | _, _ => none

def ofNat (n : Nat) : Json := .number (.integer n)

def ofInt (n : Int) : Json := .number (.integer n)

/-- A floating point number; one that is not finite has no JSON form and becomes `null`. -/
def ofBinary64 (x : Binary64) : Json := if x.isFinite then .number (.real x) else .null

def ofOption {α : Type} (f : α → Json) : Option α → Json
  | none => .null
  | some a => f a

def ofStrings (items : List String) : Json := .array (items.map .string)

def string? : Json → Option String
  | string s => some s
  | _ => none

/-- The number of a value that is not negative and whole. -/
def nat? : Json → Option Nat
  | number (.integer n) => if 0 ≤ n then some n.toNat else none
  | _ => none

def bool? : Json → Option Bool
  | bool b => some b
  | _ => none

def array? : Json → Option (List Json)
  | array items => some items
  | _ => none

def isNull : Json → Bool
  | null => true
  | _ => false

end Json

end AgentGateway
