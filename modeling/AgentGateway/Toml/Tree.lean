import AgentGateway.Toml.Document

/-!
# Fitting sections together

Each section fills the table that its header names. A header may name a table once; tables on the
way to it come to be by themselves, and such a table may still get a header of its own later. A
header in double brackets adds one more table to a list.
-/

namespace AgentGateway.Toml

/-- Follows the path of a header and changes the entries of the table at its end. Tables that are
missing come to be; in a list of tables the way leads through the last one. -/
def along (change : Entries → Option Entries) : List Key → Entries → Option Entries
  | [], entries => change entries
  | key :: path, entries =>
    match entries.find? key.name with
    | none =>
      (along change path []).map fun inner => entries.set key none (.table .implied inner)
    | some (_, _, .table .inline _) => none
    | some (_, place, .table origin inner) =>
      (along change path inner).map fun inner => entries.set key place (.table origin inner)
    | some (_, place, .tables items) =>
      (changeLast (along change path) items).map fun items => entries.set key place (.tables items)
    | some _ => none

/-- Fills a table that is named for the first time, or one that has come to be by itself. It takes
its rank among its siblings from here. -/
def fillTable (key : Key) (s : Section) (entries : Entries) : Option Entries := do
  let start ← match entries.find? key.name with
    | none => some []
    | some (_, _, .table .implied inner) => some inner
    | some _ => none
  let filled ← s.lines.foldlM Entries.assign start
  return entries.erase key.name ++ [(key, some s.place, .table .header filled)]

def pushTable (key : Key) (s : Section) (entries : Entries) : Option Entries := do
  let filled ← Entries.ofAssignments s.lines
  let item : Option Nat × Toml := (some s.place, .table .header filled)
  match entries.find? key.name with
  | none => return entries ++ [(key, some s.place, .tables [item])]
  | some (_, place, .tables items) => return entries.set key place (.tables (items ++ [item]))
  | some _ => none

def addSection (root : Entries) (s : Section) : Option Entries :=
  match s.path.getLast? with
  | none => s.lines.foldlM Entries.assign root
  | some key =>
    along (if s.isArray then pushTable key s else fillTable key s) s.path.dropLast root

/-- The tree that a text describes, if it keeps to the format. -/
def parse? (text : List Char) : Option Entries := do
  (← document? text).foldlM addSection []

end AgentGateway.Toml
