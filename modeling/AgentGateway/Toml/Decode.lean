import AgentGateway.Binary64.Shortest
import AgentGateway.Power
import AgentGateway.Text.Quoted
import AgentGateway.Toml.Basic

/-!
# Taking configuration values apart

A record is decoded from a table, whose entries are looked at in the order of the text, or from an
array of its fields in their fixed order. Fields that are not given keep their defaults. The first
complaint counts; it points at the value that it is about, or at its key if the value has no place.
-/

namespace AgentGateway.Toml

inductive Cause where
  | missingField (name : String)
  | invalidLength (length : Nat) (wanted : String)
  | invalidType (found wanted : String)
  | invalidValue (found wanted : String)
  deriving DecidableEq, Repr, Inhabited

structure Complaint where
  cause : Cause
  place : Option Nat := none
  deriving DecidableEq, Repr, Inhabited

def Cause.message : Cause → String
  | missingField name => "missing field \x60" ++ name ++ "\x60"
  | invalidLength length wanted => "invalid length " ++ toString length ++ ", expected " ++ wanted
  | invalidType found wanted => "invalid type: " ++ found ++ ", expected " ++ wanted
  | invalidValue found wanted => "invalid value: " ++ found ++ ", expected " ++ wanted

/-- Whether a complaint is shown with its place. -/
def Cause.isPlaced : Cause → Bool
  | invalidType .. | invalidValue .. => true
  | missingField _ | invalidLength .. => false

def found : Toml → String
  | string s => "string " ++ Text.quoted s
  | integer n => "integer \x60" ++ toString n ++ "\x60"
  | real x => "floating point \x60" ++ x.formatPlain ++ "\x60"
  | boolean b => "boolean \x60" ++ toString b ++ "\x60"
  | moment | table .. => "map"
  | array _ | tables _ => "sequence"

def mismatch {α : Type} (wanted : String) (v : Toml) : Except Complaint α :=
  .error ⟨.invalidType v.found wanted, none⟩

def placed {α : Type} (place : Option Nat) : Except Complaint α → Except Complaint α
  | .ok a => .ok a
  | .error c => .error { c with place := c.place.or place }

def asText (wanted : String) : Toml → Except Complaint String
  | string s => .ok s
  | v => v.mismatch wanted

/-- A whole number that is not negative and at most `limit`. -/
def asNat (wanted : String) (limit : Nat) : Toml → Except Complaint Nat
  | integer n =>
    if 0 ≤ n ∧ n ≤ limit then .ok n.toNat
    else .error ⟨.invalidValue (found (.integer n)) wanted, none⟩
  | v => v.mismatch wanted

def asUnsigned64 : Toml → Except Complaint Nat := asNat "u64" maxWord64

def asUnsigned32 : Toml → Except Complaint Nat := asNat "u32" maxWord32

def asCount : Toml → Except Complaint Nat := asNat "usize" maxWord64

/-- A floating point number; an integer is one too. -/
def asReal : Toml → Except Complaint Binary64
  | real x => .ok x
  | integer n => .ok (.ofInt n)
  | v => v.mismatch "f64"

def asTexts : Toml → Except Complaint (List String)
  | array items | tables items =>
    items.mapM fun (place, v) => placed place (asText "a string" v)
  | v => v.mismatch "a sequence"

/-- Puts a value under a key; keys are kept in order. -/
def insertSorted {α : Type} (key : String) (value : α) : List (String × α) → List (String × α)
  | [] => [(key, value)]
  | (k, v) :: rest =>
    if key < k then (key, value) :: (k, v) :: rest
    else if key = k then (key, value) :: rest
    else (k, v) :: insertSorted key value rest

/-- A table of values of one kind, in the order of its keys. -/
def asMap {α : Type} (decode : Toml → Except Complaint α) :
    Toml → Except Complaint (List (String × α))
  | table _ entries =>
    entries.foldlM (fun done (key, place, v) => do
      let a ← placed (place.or (some key.place)) (decode v)
      return insertSorted key.name a done) []
  | v => v.mismatch "a map"

/-- A field of a record: its name, whether it must be given, and how it is filled in. -/
structure Field (σ : Type) where
  name : String
  required : Bool
  fill : σ → Toml → Except Complaint σ

def optional {σ α : Type} (name : String) (decode : Toml → Except Complaint α)
    (set : σ → α → σ) : Field σ :=
  ⟨name, false, fun s v => (decode v).map (set s)⟩

def required {σ α : Type} (name : String) (decode : Toml → Except Complaint α)
    (set : σ → α → σ) : Field σ :=
  ⟨name, true, fun s v => (decode v).map (set s)⟩

/-- Fills in the entry of a table; an entry without a field means nothing. -/
def fillEntry {σ : Type} (fields : List (Field σ)) (state : σ × List String) (entry : Entry) :
    Except Complaint (σ × List String) :=
  let (key, place, v) := entry
  match fields.find? (fun f => f.name == key.name) with
  | none => .ok state
  | some f => do
    let s ← placed (place.or (some key.place)) (f.fill state.1 v)
    return (s, key.name :: state.2)

def fillItems {σ : Type} : List (Field σ) → List (Option Nat × Toml) → σ → Except Complaint σ
  | f :: fields, (place, v) :: items, s => do
    fillItems fields items (← placed place (f.fill s v))
  | _, _, s => .ok s

/-- A record with the given fields, which starts out with its defaults. -/
def asRecord {σ : Type} (name : String) (fields : List (Field σ)) (initial : σ) :
    Toml → Except Complaint σ
  | table _ entries => do
    let (s, seen) ← entries.foldlM (fillEntry fields) (initial, [])
    match fields.find? (fun f => f.required && !seen.contains f.name) with
    | some f => .error ⟨.missingField f.name, none⟩
    | none => return s
  | array items | tables items => do
    let s ← fillItems fields items initial
    match (fields.drop items.length).findIdx? (·.required) with
    | some i => .error ⟨.invalidLength (items.length + i)
        ("struct " ++ name ++ " with " ++ toString fields.length ++ " elements"), none⟩
    | none => return s
  | v => v.mismatch ("struct " ++ name)

end AgentGateway.Toml
