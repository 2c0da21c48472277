import Wiring.Text.Blank

namespace Wiring.Log

/-! The process logger starts once. Its first successful start fixes a level and a directory;
a later start with the same pair succeeds and changes nothing, any other is refused. Panic
messages reach the log flattened to one line of bounded length. -/

/-- Log levels. -/
inductive Level where
  | trace
  | debug
  | info
  | warn
  | error
  deriving DecidableEq, Repr, Inhabited

namespace Level

def name : Level → String
  | trace => "trace"
  | debug => "debug"
  | info => "info"
  | warn => "warn"
  | error => "error"

/-- Reads a level: surrounding White_Space is ignored, ASCII letters compare without case, and
`warning` is read as `warn`. -/
def parse? (s : String) : Option Level :=
  match String.ofList ((Text.trim s).toList.map Char.toLower) with
  | "trace" => some trace
  | "debug" => some debug
  | "info" => some info
  | "warn" => some warn
  | "warning" => some warn
  | "error" => some error
  | _ => none

end Level

def defaultLevel : String := "info"

/-- A log directory: an absolute one, or a relative one, with the text that names it. -/
inductive Directory where
  | absolute (text : String)
  | relative (text : String)
  deriving DecidableEq, Repr, Inhabited

/-- A component of a path: the root, the directory a relative path starts from, the parent, or
a name. -/
inductive Component where
  | root
  | current
  | parent
  | normal (name : String)
  deriving DecidableEq, Repr

namespace Directory

def text : Directory → String
  | absolute t => t
  | relative t => t

def ofPath (p : String) : Directory :=
  if p.startsWith "/" then absolute p else relative p

/-- The components named between separators: the empty names that repeated and trailing
separators leave, and `.` names, are dropped; `..` is the parent. -/
def bodyComponents (t : String) : List Component :=
  ((t.toList.splitOn '/').filter fun w => !w.isEmpty && w != ['.']).map fun w =>
    if w = ['.', '.'] then .parent else .normal (String.ofList w)

/-- The components of a path: an absolute path starts at the root, and a relative path that
starts with a `.` name starts from the current directory. -/
def components : Directory → List Component
  | absolute t => .root :: bodyComponents t
  | relative t =>
    (if t.toList = ['.'] || ['.', '/'].isPrefixOf t.toList then [.current] else []) ++
      bodyComponents t

def sameAs (d e : Directory) : Bool :=
  d.components == e.components

end Directory

/-- Why the logger did not start. -/
inductive LogError where
  | unsupportedLevel (given : String)
  | invalidDirectory (path reason : String)
  | backend (message : String)
  | alreadyActive (active requested : String)
  deriving DecidableEq, Repr, Inhabited

namespace LogError

def message : LogError → String
  | unsupportedLevel l =>
    "unsupported log level `" ++ l ++ "`; expected trace|debug|info|warn|error"
  | invalidDirectory p r => "log directory `" ++ p ++ "` is unusable: " ++ r
  | backend m => "logger backend failed: " ++ m
  | alreadyActive a r => "logging already active with `" ++ a ++ "`; refusing to switch to `" ++ r ++ "`"

end LogError

/-- A running logger. -/
structure Logger where
  level : Level
  directory : Directory
  deriving DecidableEq, Repr, Inhabited

/-- What creating a directory with its missing parents answers on a host: nothing, or the
system's reason for failing. -/
abbrev Creation := String → Except String Unit

def nameMax : Nat := 255

def pathMax : Nat := 4096

/-- Walks a path's components from the root on a host where the listed paths are files: a
component under a file finds no directory, a component longer than `nameMax` is refused, and
a path that ends at a file exists already. `.` stays and `..` goes up. -/
def walkComponents (files : List String) : String → List String → Except String Unit
  | here, [] => if files.contains here then .error "File exists (os error 17)" else .ok ()
  | here, c :: rest =>
    if files.contains here then .error "Not a directory (os error 20)"
    else if c.utf8ByteSize > nameMax then .error "File name too long (os error 36)"
    else if c = "." then walkComponents files here rest
    else if c = ".." then
      walkComponents files (String.intercalate "/" ((here.splitOn "/").dropLast)) rest
    else walkComponents files (here ++ "/" ++ c) rest

/-- Directory creation on a host where the listed paths are files and any other path can become
a directory. A path holding a zero byte cannot be handed to the system; a path too long, or
with a component too long, is refused; a path below a file has a parent that is not a
directory; a listed path exists already. -/
def createAmongFiles (files : List String) : Creation := fun p =>
  if p.toList.contains '\x00' then .error "file name contained an unexpected NUL byte"
  else if p.utf8ByteSize + 1 > pathMax then .error "File name too long (os error 36)"
  else walkComponents files "" ((p.splitOn "/").filter (· ≠ ""))

/-- Starts the logger, or checks a start against the running one. The level is checked first,
then that the directory is absolute; with no logger running, the directory is created next and
a failure to create it stops the start. Last come the directory of the running logger, compared
by components, and its level. -/
def start (active : Option Logger) (create : Creation) (level : String) (dir : Directory) :
    Except LogError Logger := do
  let some lvl := Level.parse? level
    | throw (.unsupportedLevel (Text.trim level))
  match dir with
  | .relative p => throw (.invalidDirectory p "path must be absolute")
  | .absolute p =>
    let running ← match active with
      | some l => pure l
      | none => match create p with
        | .ok () => pure ⟨lvl, dir⟩
        | .error reason => throw (.invalidDirectory p reason)
    if !running.directory.sameAs dir then
      throw (.alreadyActive running.directory.text dir.text)
    if running.level ≠ lvl then
      throw (.alreadyActive running.level.name lvl.name)
    return running

/-- A request to start the logger: a level name and a directory. -/
structure Request where
  level : String
  dir : Directory
  deriving DecidableEq, Repr

/-- A start request made in a process: the answer, and the logger running afterwards. A running
logger stays whatever the answer; with none running, a successful start leaves its logger
running. -/
def init (active : Option Logger) (create : Creation) (r : Request) :
    Except LogError Unit × Option Logger :=
  match start active create r.level r.dir with
  | .ok l => (.ok (), some l)
  | .error e => (.error e, active)

/-- Start requests made one after another: their answers in order, and the logger running at
the end. -/
def initAll (active : Option Logger) (create : Creation) :
    List Request → List (Except LogError Unit) × Option Logger
  | [] => ([], active)
  | r :: rs =>
    let (answer, running) := init active create r
    let (answers, final) := initAll running create rs
    (answer :: answers, final)

def status (active : Option Logger) : Option (Level × Directory) :=
  active.map fun l => (l.level, l.directory)

/-- Replaces line feeds and carriage returns by spaces and keeps the first `limit` characters,
marking a cut with three dots. -/
def singleLine (s : String) (limit : Nat) : String :=
  let flat := s.toList.map (fun c => if c = '\n' ∨ c = '\r' then ' ' else c)
  String.ofList (flat.take limit) ++ (if flat.length > limit then "..." else "")

def panicLimit : Nat := 200

/-- What a panic carries: a text, or something else. -/
inductive PanicPayload where
  | text (s : String)
  | other
  deriving DecidableEq, Repr, Inhabited

def PanicPayload.logged : PanicPayload → String
  | .text s => singleLine s panicLimit
  | .other => "non-string panic payload"

end Wiring.Log
