import AgentGateway.Binary64.Basic

/-!
# Values of the configuration format

A configuration file is a tree of tables. Every value remembers where in the text it stands, so
that a complaint about it can point there; a table that no header names has no place of its own,
and a complaint about it points at its key. Places are numbers of characters before the value.
-/

namespace AgentGateway

/-- How a table came to be, which decides what may be added to it later: a header names it, it lies
on the way to one that a header names, a key with dots opened it, or it is written in braces. -/
inductive Toml.Origin where
  | header
  | implied
  | dotted
  | inline
  deriving DecidableEq, Repr, Inhabited

structure Toml.Key where
  name : String
  place : Nat
  deriving DecidableEq, Repr, Inhabited

/-- A value. Items and entries carry their place, if they have one. Nothing here looks into a date
or a time; `tables` are those that headers in double brackets name, one after another. -/
inductive Toml where
  | string (s : String)
  | integer (n : Int)
  | real (x : Binary64)
  | boolean (b : Bool)
  | moment
  | array (items : List (Option Nat × Toml))
  | table (origin : Toml.Origin) (entries : List (Toml.Key × Option Nat × Toml))
  | tables (items : List (Option Nat × Toml))
  deriving Repr, Inhabited

namespace Toml

abbrev Entry := Key × Option Nat × Toml

/-- The entries of a table, in the order in which they came. -/
abbrev Entries := List Entry

def Entries.find? (entries : Entries) (name : String) : Option Entry :=
  List.find? (fun e => e.1.name == name) entries

/-- Puts another value in the place of a key that is there, or adds the key at the end. -/
def Entries.set (entries : Entries) (key : Key) (place : Option Nat) (value : Toml) : Entries :=
  match entries with
  | [] => [(key, place, value)]
  | e :: rest =>
    if e.1.name = key.name then (e.1, place, value) :: rest
    else e :: Entries.set rest key place value

def Entries.erase (entries : Entries) (name : String) : Entries :=
  List.filter (fun e => e.1.name != name) entries

def changeLast (change : Entries → Option Entries) :
    List (Option Nat × Toml) → Option (List (Option Nat × Toml))
  | [] => none
  | [(place, .table origin entries)] =>
    (change entries).map fun entries => [(place, .table origin entries)]
  | [_] => none
  | item :: rest => (changeLast change rest).map (item :: ·)

end Toml

end AgentGateway
