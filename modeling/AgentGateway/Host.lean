import AgentGateway.Shell.Command
import AgentGateway.SystemError
import AgentGateway.Text.Lines

/-!
# The host

The machine that agents run on, as far as they can tell: what stands at a path, and which programs
can be started. A path is looked up part by part; only a folder has anything below it.
-/

namespace AgentGateway

inductive Program where
  | shell
  | utility (name : String)
  deriving DecidableEq, Repr, Inhabited

inductive Entry where
  | folder
  | document (content : Shell.Bytes)
  | program (p : Program)
  deriving DecidableEq, Repr, Inhabited

/-- Folders, documents, and the programs in the folders that hold programs. Relative paths start at
`directory`. -/
structure Host where
  folders : List String :=
    ["/", "/bin", "/dev", "/etc", "/home", "/opt", "/proc", "/root", "/sbin", "/srv", "/tmp",
      "/usr", "/usr/bin", "/usr/lib", "/usr/local", "/usr/local/bin", "/usr/local/sbin",
      "/usr/sbin", "/usr/share", "/var", "/var/tmp"]
  documents : List (String × Shell.Bytes) :=
    [("/etc/passwd", []), ("/etc/group", []), ("/etc/hosts", []), ("/etc/hostname", [])]
  programFolders : List String := ["/bin", "/usr/bin"]
  shells : List String := ["sh", "dash"]
  utilities : List String :=
    ["[", "cat", "cut", "echo", "env", "false", "grep", "head", "kill", "printenv", "printf", "pwd",
      "rev", "seq", "sleep", "sort", "tac", "tail", "test", "tr", "true", "uniq", "wc", "yes"]
  directory : String := "/tmp"
  deriving Repr, Inhabited

namespace Host

def parts (path : List Char) : List (List Char) :=
  (Text.split (· == '/') path).filter fun part => !part.isEmpty && part != ['.']

def ofParts (reversed : List (List Char)) : String :=
  if reversed.isEmpty then "/"
  else String.ofList (reversed.reverse.flatMap ('/' :: ·))

def entryAt? (h : Host) (reversed : List (List Char)) : Option Entry :=
  let path := ofParts reversed
  if h.folders.contains path ∨ path = h.directory then some .folder
  else
    match h.documents.lookup path with
    | some content => some (.document content)
    | none =>
      match reversed with
      | name :: folder =>
        let name := String.ofList name
        if h.programFolders.contains (ofParts folder) then
          if h.shells.contains name then some (.program .shell)
          else if h.utilities.contains name then some (.program (.utility name))
          else none
        else none
      | [] => some .folder

/-- Follows the parts of a path from a folder. -/
def follow (h : Host) : (reversed : List (List Char)) → List (List Char) →
    Except SystemError (List (List Char) × Entry)
  | reversed, [] =>
    match h.entryAt? reversed with
    | some entry => .ok (reversed, entry)
    | none => .error (SystemError.ofNumber 2)
  | reversed, part :: rest =>
    match h.entryAt? reversed with
    | some .folder =>
      follow h (if part = ['.', '.'] then reversed.drop 1 else part :: reversed) rest
    | some _ => .error (SystemError.ofNumber 20)
    | none => .error (SystemError.ofNumber 2)

def find (h : Host) (directory path : String) : Except SystemError (String × Entry) :=
  if path.isEmpty then .error (SystemError.ofNumber 2)
  else do
    let chars := path.toList
    let start := if chars.head? = some '/' then [] else (parts directory.toList).reverse
    let (reversed, entry) ← h.follow start (parts chars)
    if chars.getLast? = some '/' ∧ entry ≠ .folder then throw (SystemError.ofNumber 20)
    return (ofParts reversed, entry)

def findFolder (h : Host) (directory path : String) : Except SystemError String := do
  match ← h.find directory path with
  | (full, .folder) => return full
  | _ => throw (SystemError.ofNumber 20)

def findProgram (h : Host) (directory path : String) : Except SystemError Program := do
  match ← h.find directory path with
  | (_, .program p) => return p
  | _ => throw (SystemError.ofNumber 13)

/-- Where programs are looked for if nothing is said about it. -/
def usualSearch : String := "/bin:/usr/bin"

/-- Looks for a program in some folders. A place where there is something else is remembered as
the reason if nothing is found. -/
def searchProgram (h : Host) (directory name : String) :
    List (List Char) → SystemError → Except SystemError Program
  | [], reason => .error reason
  | folder :: rest, reason =>
    let folder := if folder.isEmpty then "." else String.ofList folder
    match h.findProgram directory (folder ++ "/" ++ name) with
    | .ok p => .ok p
    | .error e =>
      searchProgram h directory name rest (if e = SystemError.ofNumber 13 then e else reason)

/-- The program that a name means: a path, or a name to be looked for. -/
def resolve (h : Host) (directory : String) (search : Option String) (name : String) :
    Except SystemError Program :=
  if name.isEmpty then .error (SystemError.ofNumber 2)
  else if name.toList.contains '/' then h.findProgram directory name
  else
    h.searchProgram directory name (Text.split (· == ':') (search.getD usualSearch).toList)
      (SystemError.ofNumber 2)

end Host

end AgentGateway
