import Referee.Stream
import Referee.Text.Utf8

/-!
# Files

A file system maps paths, which are lists of names, to files and directories. The empty path is
the directory in which a command runs. Operations take the text of a path and fail with the faults
of an operating system.
-/

namespace Referee

inductive Node where
  | file (content : Bytes)
  | directory
  deriving DecidableEq, Repr

abbrev Path := List String

namespace Path

/-- The top of the file system. -/
def root : Path := ["/"]

/-- The directories that are always there: the top, and the working directory and those above it. -/
def isBase (p : Path) : Bool := p == root || p.all (· == "..")

def text (p : Path) : String := "/".intercalate p

/-- Follows a name from a directory. -/
def enter (here : Path) (name : String) : Path :=
  if name ≠ ".." then here ++ [name]
  else if here == root then root
  else if here.isBase then here ++ [name]
  else here.dropLast

end Path

/-- The first entry of a path counts. -/
structure Files where
  entries : List (Path × Node)
  deriving DecidableEq, Repr

namespace Files

def empty : Files := ⟨[]⟩

def find? (fs : Files) (p : Path) : Option Node :=
  if p.isBase then some .directory else fs.entries.lookup p

def put (fs : Files) (p : Path) (n : Node) : Files := ⟨(p, n) :: fs.entries.filter (·.1 ≠ p)⟩

@[simp]
theorem find?_put_self (fs : Files) {p : Path} (hp : p.isBase = false) (n : Node) :
    (fs.put p n).find? p = some n := by
  simp [find?, put, hp]

theorem find?_put_of_ne (fs : Files) {p q : Path} (h : q ≠ p) (n : Node) :
    (fs.put p n).find? q = fs.find? q := by
  have others : ∀ l : List (Path × Node), (l.filter (·.1 ≠ p)).lookup q = l.lookup q := by
    intro l
    induction l with
    | nil => rfl
    | cons e l ih =>
      obtain ⟨r, m⟩ := e
      by_cases hr : r = p
      · have : (q == r) = false := by simpa [hr] using h
        rw [List.filter_cons_of_neg (by simpa using hr), ih, List.lookup_cons, this]
      · rw [List.filter_cons_of_pos (by simpa using hr), List.lookup_cons, List.lookup_cons, ih]
  have : (q == p) = false := by simpa using h
  simp only [find?, put, List.lookup_cons, this, others]

/-! ## Faults -/

def notFound : Fault := ⟨.notFound, "No such file or directory (os error 2)"⟩

def alreadyExists : Fault := ⟨.alreadyExists, "File exists (os error 17)"⟩

def notADirectory : Fault := ⟨.notADirectory, "Not a directory (os error 20)"⟩

def isADirectory : Fault := ⟨.isADirectory, "Is a directory (os error 21)"⟩

def nameTooLong : Fault := ⟨.other, "File name too long (os error 36)"⟩

def nulInName : Fault := ⟨.invalidInput, "file name contained an unexpected NUL byte"⟩

def notText : Fault := ⟨.invalidData, "stream did not contain valid UTF-8"⟩

/-! ## Paths -/

/-- The names that a path consists of; those that change nothing are left out. -/
def components (path : String) : List String :=
  ((path.toList.splitOnP (· == '/')).map String.ofList).filter fun c => c ≠ "" ∧ c ≠ "."

/-- The directory from which the names of a path are followed. -/
def origin (path : String) : Path := if path.toList.head? = some '/' then Path.root else []

/-- A path that can only be a directory. -/
def endsInSlash (path : String) : Bool :=
  match path.toList.reverse with
  | '/' :: _ => true
  | '.' :: '/' :: _ => true
  | _ => false

def maxNameLength : Nat := 255

def maxPathLength : Nat := 4095

/-- Follows names from a directory; all but the last one must be directories. -/
def walk (fs : Files) (here : Path) : List String → Except Fault Path
  | [] => .ok here
  | name :: rest =>
    if maxNameLength < name.utf8ByteSize then .error nameTooLong
    else if rest.isEmpty then .ok (here.enter name)
    else match fs.find? (here.enter name) with
      | some .directory => fs.walk (here.enter name) rest
      | some (.file _) => .error notADirectory
      | none => .error notFound

/-- The path that a text denotes. -/
def locate (fs : Files) (path : String) : Except Fault Path :=
  if path.toList.contains '\x00' then .error nulInName
  else if path.isEmpty then .error notFound
  else if maxPathLength < path.utf8ByteSize then .error nameTooLong
  else fs.walk (origin path) (components path)

/-- The existing file or directory that a text denotes. -/
def open? (fs : Files) (path : String) : Except Fault (Path × Node) :=
  match fs.locate path with
  | .error e => .error e
  | .ok p =>
    match fs.find? p with
    | none => .error notFound
    | some (.file content) =>
      if endsInSlash path then .error notADirectory else .ok (p, .file content)
    | some .directory => .ok (p, .directory)

/-! ## Reading and writing -/

/-- The whole content of a file. -/
def read (fs : Files) (path : String) : Except Fault Bytes :=
  match fs.open? path with
  | .error e => .error e
  | .ok (_, .directory) => .error isADirectory
  | .ok (_, .file content) => .ok content

def readText (fs : Files) (path : String) : Except Fault String :=
  match fs.read path with
  | .error e => .error e
  | .ok content =>
    match content.toString? with
    | some s => .ok s
    | none => .error notText

/-- What reading a node from an offset delivers. A directory can be opened but not read. -/
def Node.reader (offset : Nat) : Node → Reader
  | .file content => Reader.buffered bufferSize (content.drop offset)
  | .directory => [.fault isADirectory]

/-- A stream over a file. -/
def openReader (fs : Files) (path : String) : Except Fault Reader :=
  match fs.open? path with
  | .error e => .error e
  | .ok (_, n) => .ok (Node.reader 0 n)

/-- A file that exists, for writing. -/
def openWriter (fs : Files) (path : String) : Except Fault Path :=
  match fs.open? path with
  | .error e => .error e
  | .ok (_, .directory) => .error isADirectory
  | .ok (p, .file _) => .ok p

/-- A file for writing, created if there is none. -/
def openOrCreate (fs : Files) (path : String) : Except Fault (Path × Files) :=
  match fs.locate path with
  | .error e => .error e
  | .ok p =>
    match fs.find? p with
    | some .directory => .error isADirectory
    | some (.file _) => if endsInSlash path then .error notADirectory else .ok (p, fs)
    | none => if endsInSlash path then .error isADirectory else .ok (p, fs.put p (.file []))

def contentAt (fs : Files) (p : Path) : Bytes :=
  match fs.find? p with
  | some (.file content) => content
  | _ => []

/-- Replaces the content of a file, which is created if there is none. -/
def write (fs : Files) (path : String) (content : Bytes) : Except Fault Files :=
  match fs.openOrCreate path with
  | .error e => .error e
  | .ok (p, fs) => .ok (fs.put p (.file content))

/-- Writes over the content of a file from an offset on; what lies behind stays. -/
def overwrite (fs : Files) (p : Path) (offset : Nat) (bs : Bytes) : Files :=
  let content := fs.contentAt p
  fs.put p (.file (content.take offset ++ bs ++ content.drop (offset + bs.length)))

def append (fs : Files) (p : Path) (bs : Bytes) : Files := fs.put p (.file (fs.contentAt p ++ bs))

/-! ## Directories -/

/-- Creates the directories that are missing on the way along a list of names. -/
def makeDirectories (fs : Files) (here : Path) : List String → Except Fault Files
  | [] => .ok fs
  | name :: rest =>
    let there := here.enter name
    match fs.find? there with
    | some .directory => fs.makeDirectories there rest
    | some (.file _) => .error (if rest.isEmpty then alreadyExists else notADirectory)
    | none =>
      if maxNameLength < name.utf8ByteSize then .error nameTooLong
      else (fs.put there .directory).makeDirectories there rest

/-- Creates the directories above a path. -/
def makeParents (fs : Files) (path : String) : Except Fault Files :=
  let parents := (components path).dropLast
  if parents.any (·.toList.contains '\x00') then .error nulInName
  else fs.makeDirectories (origin path) parents

/-- Adds a node and the directories above it. -/
def add (fs : Files) (path : String) (n : Node) : Files :=
  match fs.makeParents path with
  | .ok fs => fs.put ((components path).foldl Path.enter (origin path)) n
  | .error _ => fs

end Files

end Referee
