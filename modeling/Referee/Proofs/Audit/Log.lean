import Referee.Audit.Log
import Referee.Proofs.Audit.Events
import Referee.Proofs.Files

/-!
# The audit log as a record

Opening a log keeps what its file holds (`contentAt_openLog`) and every recording appends to it
(`contentAt_recordAll`). What is appended is one line for each event, and the events are read back from
the lines (`log_append_only`).
-/

namespace Referee

namespace Audit

/-! ## Opening -/

theorem openOrCreate_of_openLog {fs opened : Files} {path : String} {p : Path}
    (h : openLog fs path = .ok (p, opened)) :
    ∃ made, fs.makeParents path = .ok made ∧ made.openOrCreate path = .ok (p, opened) := by
  unfold openLog at h
  split at h
  · cases h
  rename_i made hmade
  split at h
  · cases h
  · rename_i r hr
    cases h
    exact ⟨made, hmade, hr⟩

/-- Opening a log changes no content, neither of the log nor of another file. -/
theorem contentAt_openLog {fs opened : Files} {path : String} {p : Path}
    (h : openLog fs path = .ok (p, opened)) (q : Path) : opened.contentAt q = fs.contentAt q := by
  obtain ⟨made, hmade, hopened⟩ := openOrCreate_of_openLog h
  rw [Files.contentAt_openOrCreate hopened, Files.contentAt_makeParents hmade]

/-! ## Recording -/

/-- A call that records entries: who stamps them, and which number the first of them has. -/
structure Recording where
  clock : Clock
  first : Nat
  trail : List Entry

namespace Recording

/-- The call that records a single event. -/
def ofEvent (e : Event) : Recording := ⟨⟨e.session, fun _ => e.time⟩, 0, [e.entry]⟩

def events (r : Recording) : List Event := r.clock.stamp r.first r.trail

example (e : Event) : (ofEvent e).events = [e] := rfl

def run (log : Path) (r : Recording) (fs : Files) : Files :=
  Recorder.record ⟨r.clock, some log⟩ r.first r.trail fs

end Recording

/-- Makes the calls in order. -/
def recordAll (log : Path) (rs : List Recording) (fs : Files) : Files :=
  rs.foldl (fun fs r => r.run log fs) fs

theorem contentAt_run {p : Path} (hp : p.isBase = false) (r : Recording) (fs : Files) :
    (r.run p fs).contentAt p = fs.contentAt p ++ eventLines r.events :=
  Files.contentAt_append_self fs hp _

theorem eventLines_append (es fs : List Event) : eventLines (es ++ fs) = eventLines es ++ eventLines fs :=
  List.flatMap_append

theorem contentAt_recordAll {p : Path} (hp : p.isBase = false) (rs : List Recording) (fs : Files) :
    (recordAll p rs fs).contentAt p = fs.contentAt p ++ eventLines (rs.flatMap Recording.events) := by
  induction rs generalizing fs with
  | nil => exact (List.append_nil _).symm
  | cons r rs ih =>
    have hrest := ih (r.run p fs)
    rw [contentAt_run hp, List.append_assoc, ← eventLines_append] at hrest
    exact hrest

/-- **The log is append-only and nothing in an event can forge a line of it.** Whatever the file held
stays in front; behind it stands one line for each event in the order of recording, without control
characters, and the line reads as that very event. -/
theorem log_append_only {fs opened : Files} {path : String} {p : Path}
    (hopen : openLog fs path = .ok (p, opened)) (rs : List Recording) :
    ∃ ls : List Bytes,
      (recordAll p rs opened).contentAt p = fs.contentAt p ++ ls.flatMap (· ++ [10]) ∧
        (∀ l ∈ ls, ∀ b ∈ l, 0x20 ≤ b) ∧
        ls.map Event.ofLine? = (rs.flatMap Recording.events).map some := by
  obtain ⟨made, -, hopened⟩ := openOrCreate_of_openLog hopen
  have hp := Files.isBase_of_openOrCreate hopened
  refine ⟨(rs.flatMap Recording.events).map Event.bytes, ?_, ?_, ?_⟩
  · rw [contentAt_recordAll hp, contentAt_openLog hopen, List.flatMap_map]
    rfl
  · intro l hl
    obtain ⟨e, -, rfl⟩ := List.mem_map.mp hl
    exact fun b => e.le_of_mem_bytes
  · simp only [List.map_map, Function.comp_def, Event.ofLine?_bytes]

/-- A log that is already there goes on with three events: two recorded one by one, the last of them
with nothing but its details, and one as a trail. -/
theorem log_append_only_hostile :
    let opened : Files := ⟨[(["log"], .file [123, 10])]⟩
    let hostile : Audit.Entry := ⟨.round, .warning, "a\"\\\n\r\u0001é", some "x\n\x7b\x7d", some 7, some .accepted⟩
    let events : List Event := [⟨.nil, .epoch, hostile⟩, ⟨.nil, .epoch, .plain .sessionEnd "\n"⟩]
    let rs := events.map Recording.ofEvent ++ [⟨⟨.nil, fun _ => .epoch⟩, 2, [hostile]⟩]
    openLog opened "log" = .ok (["log"], opened) ∧
      ∃ ls : List Bytes,
        (recordAll ["log"] rs opened).contentAt ["log"] = opened.contentAt ["log"] ++ ls.flatMap (· ++ [10]) ∧
          (∀ l ∈ ls, ∀ b ∈ l, 0x20 ≤ b) ∧
          ls.map Event.ofLine? = (rs.flatMap Recording.events).map some := by
  intro opened hostile events rs
  have hopen : openLog opened "log" = .ok (["log"], opened) := by rfl
  exact ⟨hopen, log_append_only hopen rs⟩

end Audit

end Referee
