import AgentGateway.Json.Reader

/-!
# Taking values apart

What a value holds, for a wanted kind. A value has no position in a text any more, so a refusal
is a bare cause. The fields of an object are looked at in the order of their keys, and a field
that is missing is reported only after all that are present.
-/

namespace AgentGateway.Json

def found : Json → Found
  | null => .null
  | bool b => .bool b
  | number n => n.found
  | string s => .string s
  | array _ => .sequence
  | object _ => .map

def asText : Json → Except Cause String
  | string s => .ok s
  | v => .error (.invalidType v.found "a string")

def asBool : Json → Except Cause Bool
  | bool b => .ok b
  | v => .error (.invalidType v.found "a boolean")

def asReal : Json → Except Cause Binary64
  | number n => .ok n.toBinary64
  | v => .error (.invalidType v.found "f64")

def asMembers : Json → Except Cause Members
  | object members => .ok members
  | v => .error (.invalidType v.found "a map")

def asOption {α : Type} (decode : Json → Except Cause α) : Json → Except Cause (Option α)
  | null => .ok none
  | v => (decode v).map some

def require {α : Type} (name : String) : Option α → Except Cause α
  | some a => .ok a
  | none => .error (.missingField name)

end AgentGateway.Json
