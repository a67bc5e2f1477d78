import Referee.Files
import Referee.Relay

/-!
# A relay over files

The channels are files. They are opened in a fixed order: the writer to stage A, the reader from
stage A, then the same for stage B. Writing goes over the content from the start of a file on, and
reading sees what has been written by then.
-/

namespace Referee.Relay

/-- The files of a relay, in the order in which a manager is given them. -/
structure Paths where
  fromA : String
  toA : String
  fromB : String
  toB : String
  deriving DecidableEq, Repr

/-- A position in a file that is written. -/
structure FileWriter where
  path : Path
  offset : Nat
  deriving DecidableEq, Repr

/-- A position in a file that is read, and the bytes in front of it that have not been used. -/
structure FileReader where
  path : Path
  offset : Nat
  buffer : Bytes
  deriving DecidableEq, Repr

structure FileEnds where
  files : Files
  toA : FileWriter
  fromA : FileReader
  toB : FileWriter
  fromB : FileReader

namespace FileReader

/-- What the file delivers from here on. -/
def unread (r : FileReader) (fs : Files) : Reader :=
  Reader.pushBack r.buffer (Files.Node.reader r.offset ((fs.find? r.path).getD (.file [])))

/-- The position after reading `all` up to `left`. The buffer is what is left of a chunk of which
something has been used. -/
def advance (r : FileReader) (all left : Reader) : FileReader :=
  let untouched := all.drop (all.length - left.length)
  let buffer := match left, untouched with
    | .data rest :: _, .data chunk :: _ => if rest.length < chunk.length then rest else []
    | _, _ => []
  let position := r.offset + (Reader.bytes all).length - (Reader.bytes left).length - r.buffer.length
  { r with offset := position + buffer.length, buffer := buffer }

def readToken (channel : String) (r : FileReader) (fs : Files) : Except Failure Bytes × FileReader :=
  let all := r.unread fs
  let (result, left) := Reader.readToken channel all
  (result, r.advance all left)

end FileReader

namespace FileWriter

def write (w : FileWriter) (bs : Bytes) (fs : Files) : FileWriter × Files :=
  ({ w with offset := w.offset + bs.length }, fs.overwrite w.path w.offset bs)

end FileWriter

namespace FileEnds

def peerA : Peer FileEnds where
  channel := stageA
  send bs e := let (w, fs) := e.toA.write bs e.files; (.ok (), { e with toA := w, files := fs })
  receive e :=
    let (result, r) := e.fromA.readToken stageA e.files
    (result, { e with fromA := r })

def peerB : Peer FileEnds where
  channel := stageB
  send bs e := let (w, fs) := e.toB.write bs e.files; (.ok (), { e with toB := w, files := fs })
  receive e :=
    let (result, r) := e.fromB.readToken stageB e.files
    (result, { e with fromB := r })

/-- Passes a payload through both stages. -/
def pass (commands : RelaySettings) (payload : Bytes) (e : FileEnds) :
    Except Failure Bytes × List Audit.Entry × FileEnds :=
  Relay.pass peerA peerB commands payload e

end FileEnds

/-! ## Opening -/

def openFault (path : String) (e : Fault) : Failure := .io ⟨e.kind, path ++ ": " ++ e.text⟩

def openEntry (channel path : String) : Audit.Entry :=
  (Audit.Entry.plain .channelOpen path).withChannel channel

def openWriter (fs : Files) (path : String) : Except Failure FileWriter :=
  match fs.openWriter path with
  | .ok p => .ok ⟨p, 0⟩
  | .error e => .error (openFault path e)

def openReader (fs : Files) (path : String) : Except Failure FileReader :=
  match fs.open? path with
  | .ok (p, _) => .ok ⟨p, 0, []⟩
  | .error e => .error (openFault path e)

/-- The channels that have been opened, in order, and the failure of the next one, if any. -/
structure Opening where
  result : Except Failure FileEnds
  entries : List Audit.Entry

/-- Opens the four files. -/
def openFiles (fs : Files) (paths : Paths) : Opening :=
  match openWriter fs paths.toA with
  | .error e => ⟨.error e, []⟩
  | .ok toA =>
    let entries := [openEntry stageA paths.toA]
    match openReader fs paths.fromA with
    | .error e => ⟨.error e, entries⟩
    | .ok fromA =>
      let entries := entries ++ [openEntry stageA paths.fromA]
      match openWriter fs paths.toB with
      | .error e => ⟨.error e, entries⟩
      | .ok toB =>
        let entries := entries ++ [openEntry stageB paths.toB]
        match openReader fs paths.fromB with
        | .error e => ⟨.error e, entries⟩
        | .ok fromB =>
          ⟨.ok ⟨fs, toA, fromA, toB, fromB⟩, entries ++ [openEntry stageB paths.fromB]⟩

end Referee.Relay
