import AgentGateway.Shell.Pattern

/-!
# Fragments and fields

Expanding a word gives fragments: text that stays whole, text that is cut at separators, and
places where one field ends and the next begins. The fields are the arguments of a command.
-/

namespace AgentGateway.Shell

/-- A part of an expanded word: text that stays whole, text that is cut at separators, or the end of
one field and the start of the next. Quoted text has no special bytes in patterns. -/
inductive Fragment where
  | fixed (text : Bytes) (quoted : Bool)
  | loose (text : Bytes)
  | boundary
  deriving DecidableEq, Repr, Inhabited

namespace Fragment

def text : Fragment → Bytes
  | fixed t _ | loose t => t
  | boundary => [32]

def whole (fs : List Fragment) : Bytes := (fs.map text).flatten

def pattern (fs : List Fragment) : Pattern :=
  let marked := fs.flatMap fun f =>
    match f with
    | fixed t quoted => t.map (·, !quoted)
    | loose t => t.map (·, true)
    | boundary => [(32, false)]
  Pattern.ofBytes (marked.length + 1) marked

/-- Fields in progress: those that are complete, and the current one, both in reverse. -/
structure Fields where
  complete : List Bytes := []
  current : Option Bytes := none
  deriving Repr, Inhabited

def Fields.close (f : Fields) : Fields :=
  match f.current with
  | some text => ⟨text.reverse :: f.complete, none⟩
  | none => f

/-- One more byte of loose text. Blank separators in a row count once; each other separator ends a
field. -/
def Fields.addLoose (separators : Bytes) (f : Fields) (b : UInt8) : Fields :=
  if separators.contains b then
    if b = 32 ∨ b = 9 ∨ b = 10 then f.close
    else
      match f.current with
      | some _ => f.close
      | none => { f with complete := [] :: f.complete }
  else { f with current := some (b :: f.current.getD []) }

def Fields.add (separators : Bytes) (f : Fields) : Fragment → Fields
  | fixed text _ => { f with current := some (text.reverse ++ f.current.getD []) }
  | loose text => text.foldl (Fields.addLoose separators) f
  | boundary => f.close

def fields (separators : Bytes) (fs : List Fragment) : List Bytes :=
  ((fs.foldl (Fields.add separators) {}).close).complete.reverse

end Fragment

end AgentGateway.Shell
