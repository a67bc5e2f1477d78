import Referee.Command.Run
import Std.Time.DateTime.Timestamp

/-!
# The programs

The commands over real files and streams. A copy of the files that a command names is taken, the
command is carried out on the copy, and what has changed is written back. A game and a relay are
played step by step with the peers that are at the other ends.
-/

namespace Referee.Main

open Command

/-! ## Faults -/

def systemCode (code : UInt32) : Nat :=
  if code < 0x80000000 then code.toNat else 0x100000000 - code.toNat

def systemFault (kind : FaultKind) (code : UInt32) (details : String) : Fault :=
  match systemCode code with
  | 2 => Files.notFound
  | 20 => Files.notADirectory
  | 21 => Files.isADirectory
  | n => ⟨kind, details ++ " (os error " ++ n.repr ++ ")"⟩

def faultOf : IO.Error → Fault
  | .noFileOrDirectory _ code details => systemFault .notFound code details
  | .permissionDenied _ code details => systemFault .permissionDenied code details
  | .alreadyExists _ code details => systemFault .alreadyExists code details
  | .resourceVanished code details => systemFault .brokenPipe code details
  | .inappropriateType _ code details => systemFault .other code details
  | .interrupted _ code details => systemFault .interrupted code details
  | e => ⟨.other, e.toString⟩

def attempt {α : Type} (act : IO α) : IO (Except Fault α) := do
  return (← act.toBaseIO).mapError faultOf

/-! ## Files -/

/-- Adds what a path holds, if anything. -/
def look (fs : Files) (path : String) : IO Files := do
  match ← attempt (IO.FS.readBinFile path) with
  | .ok content => return fs.add path (.file content.toList)
  | .error fault => return if fault = Files.isADirectory then fs.add path .directory else fs

/-- Adds what a path holds and the directories above it. -/
def lookAlong (fs : Files) (path : String) : IO Files := do
  let names := (Files.components path).dropLast
  let above := (List.range names.length).map fun k => Path.text (Files.origin path ++ names.take (k + 1))
  (above ++ [path]).foldlM look fs

/-- Writes back what has changed. -/
def store (before after : Files) : IO Unit := do
  for (p, n) in after.entries.reverse do
    unless before.find? p = some n do
      match n with
      | .directory => IO.FS.createDirAll p.text
      | .file content => IO.FS.writeBinFile p.text (ByteArray.mk content.toArray)

def emit (out : IO.FS.Stream) (bs : Bytes) : IO Unit := do
  out.write (ByteArray.mk bs.toArray)
  out.flush

/-! ## Recording -/

def now : IO Audit.Instant := do
  let t ← Std.Time.Timestamp.now
  return (Audit.Instant.afterEpoch? t.toNanosecondsSinceUnixEpoch.val.toNat).getD .epoch

def newSession : IO Audit.SessionId := do
  return (Audit.SessionId.ofRandom? (← IO.getRandomBytes 16).toList).getD .nil

/-- Appends entries to the log as they come. -/
def record (r : Audit.Recorder) (trail : List Audit.Entry) : IO Unit := do
  if let some p := r.log then
    let time ← now
    let events := (Audit.Clock.mk r.clock.session fun _ => time).stamp 0 trail
    IO.FS.withFile p.text .append fun h => h.write (ByteArray.mk (Audit.eventLines events).toArray)

/-! ## Tokens -/

/-- Takes bytes off a stream up to the blank after a token, the end, or a token that is too long. -/
partial def receive (input : IO.FS.Stream) (length : Nat) (read : Bytes) : IO Reader := do
  if maxTokenLength < length then return [.data read.reverse]
  match ← attempt (input.read 1) with
  | .error fault => return Reader.pushBack read.reverse [.fault fault]
  | .ok bs =>
    match bs.toList with
    | [] => return Reader.pushBack read.reverse []
    | b :: _ =>
      if isBlank b then
        if length = 0 then receive input 0 (b :: read) else return [.data (b :: read).reverse]
      else receive input (length + 1) (b :: read)

/-- A writer that has met the fault. -/
def broken (fault : Fault) : Writer := { Writer.working with room := some 0, refusal := fault }

/-- Hands a peer what has been written for it. -/
def deliver (out : IO.FS.Stream) (bs : Bytes) : IO Writer := do
  match ← attempt (emit out bs) with
  | .ok () => return .working
  | .error fault => return broken fault

/-! ## A game -/

/-- Plays a game with the contestant at the standard streams. -/
partial def play (r : Audit.Recorder) (s : Guessing.Session) :
    IO (Except Failure Guessing.Ending) := do
  if let .finished e := s.state then return .ok e
  let s ← match s.state with
    | .playing .. => do
      pure { s with contestant := s.contestant ++ (← receive (← IO.getStdin) 0 []) }
    | _ => pure s
  let (result, next) := s.step
  let w ← deliver (← IO.getStdout) (next.toContestant.written.drop s.toContestant.written.length)
  let (result, next) := if w.room.isNone then (result, next) else { s with toContestant := w }.step
  record r (next.trail.drop s.trail.length)
  match result with
  | .error e => return .error e
  | .ok () => play r next

def refereeGame (s : Surroundings) (files : List String) (convention : Option Convention) :
    IO Exit := do
  let convention := convention.getD s.settings.convention
  let fs ← files.foldlM lookAlong s.files
  match prepare s.settings files convention fs [] .working with
  | .error e => return .failing e [] fs
  | .ok (binding, session) =>
    match ← play s.recorder session with
    | .error e => return .failing (.ofFailure e) [] fs
    | .ok ending =>
      let (result, after) := conclude convention binding.output ending fs
      match ← attempt (store fs after) with
      | .error fault => return .failing (cannotCreate binding.output fault) [] fs
      | .ok () => return (Interaction.mk result .working after).exit

/-! ## A relay -/

structure Handles where
  toA : IO.FS.Stream
  fromA : IO.FS.Stream
  toB : IO.FS.Stream
  fromB : IO.FS.Stream

/-- A file is written over and not emptied; opening a pipe waits for the reader. -/
def writeMode (path : String) : IO IO.FS.Mode := do
  match (← (← IO.FS.realPath path).metadata).type with
  | .file => return .readWrite
  | _ => return .write

/-- Opens a channel and records that it is open. -/
def openChannel (r : Audit.Recorder) (channel path : String) (mode : IO IO.FS.Mode) :
    ExceptT Failure IO IO.FS.Stream := do
  match ← attempt (do IO.FS.Handle.mk path (← mode)) with
  | .error fault => throw (Relay.openFault path fault)
  | .ok h =>
    record r [Relay.openEntry channel path]
    return IO.FS.Stream.ofHandle h

def openHandles (r : Audit.Recorder) (paths : Relay.Paths) : ExceptT Failure IO Handles := do
  let toA ← openChannel r Relay.stageA paths.toA (writeMode paths.toA)
  let fromA ← openChannel r Relay.stageA paths.fromA (pure .read)
  let toB ← openChannel r Relay.stageB paths.toB (writeMode paths.toB)
  let fromB ← openChannel r Relay.stageB paths.fromB (pure .read)
  return ⟨toA, fromA, toB, fromB⟩

/-- What the relay makes of the payload, given what has been heard of the stages so far. -/
def heard (commands : RelaySettings) (payload : Bytes) (ends : Relay.Ends) :
    Except Failure Bytes × Relay :=
  Relay.run payload ⟨commands, ends, []⟩

/-- Passes a payload on: each line is sent before its reply is awaited. -/
def pass (h : Handles) (commands : RelaySettings) (payload : Bytes) :
    IO (Except Failure Bytes × List Audit.Entry) := do
  let ends : Relay.Ends := ⟨.working, [], .working, []⟩
  let (_, sent) := heard commands payload ends
  let ends := { ends with toA := ← deliver h.toA sent.ends.toA.written }
  let ends := { ends with fromA := ← if ends.toA.room.isNone then receive h.fromA 0 [] else pure [] }
  let (_, sent) := heard commands payload ends
  let ends := { ends with toB := ← deliver h.toB sent.ends.toB.written }
  let ends := { ends with
    fromB := ← if sent.ends.toB.written.isEmpty || ends.toB.room.isSome then pure []
      else receive h.fromB 0 [] }
  let (result, sent) := heard commands payload ends
  return (result, sent.trail)

def relayToken (s : Surroundings) (paths : Relay.Paths) : IO Exit := do
  let result ← show ExceptT Failure IO Bytes from do
    let h ← openHandles s.recorder paths
    let payload ← ((← receive (← IO.getStdin) 0 []).readToken stdinChannel).1
    let (result, entries) ← pass h s.settings.relay payload
    record s.recorder entries
    let reply ← result
    record s.recorder [Relay.closeEntry]
    return replyLine reply
  match result with
  | .ok reply => return ⟨0, reply, [], s.files⟩
  | .error e => return .failing (.ofFailure e) [] s.files

/-! ## Programs -/

/-- Carries out a command. -/
def invoke (s : Start) (i : Invocation) : IO Exit := do
  let fs ← (i.config.toList ++ i.auditLog.toList).foldlM lookAlong s.files
  match setUp i s.clock fs with
  | .error e => return .failing e [] fs
  | .ok surroundings =>
    match ← attempt (store fs surroundings.files), i.task with
    | .error fault, _ => return .failing (.ofFailure (Audit.cannotOpen fault)) [] fs
    | .ok (), .interact files convention => refereeGame surroundings files convention
    | .ok (), .relay paths => relayToken surroundings paths
    | .ok (), task => do
      let fs ← task.files.foldlM lookAlong surroundings.files
      return perform task { surroundings with files := fs } []

/-- The program under whose name the executable was started. -/
def program : IO Program := do
  return ((← IO.appPath).fileName.bind Program.ofName?).getD .full

def run (args : List String) : IO UInt32 := do
  let session ← newSession
  let start : Start :=
    { program := ← program, args := args, environment := ← IO.getEnv "ARBITER_CONFIG", stdin := [],
      files := .empty, clock := ⟨session, fun _ => .epoch⟩ }
  let exit ← match Request.ofArguments start.environment args with
    | .run i => if start.program.allows i.task.command then invoke start i else pure start.run
    | _ => pure start.run
  emit (← IO.getStdout) exit.stdout
  emit (← IO.getStderr) exit.stderr
  return UInt32.ofNat exit.code

end Referee.Main

def main (args : List String) : IO UInt32 := Referee.Main.run args
