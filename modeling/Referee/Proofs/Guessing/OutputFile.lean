import Referee.Command.Interact
import Referee.Proofs.Files
import Referee.Proofs.Guessing.Blame

/-!
# The output file of a game

A game that is refereed over files changes one file at most, and only if the contestant has won:
`Command.refereeGame_output` goes through all that can happen, from arguments that do not fit to an
output file that cannot be created. Until the session has ended nothing is reported either.
-/

namespace Referee

namespace Guessing

/-! ## Accepted endings -/

/-- Where the session has ended accepted, its report says nothing but the number of rounds. -/
def CountsRounds (s : Session) : Prop :=
  ∀ ending, s.state = .finished ending → ending.verdict = .accepted → ending = .accepted ending.rounds

theorem countsRounds_finish (s : Session) {ending : Ending}
    (h : ending.verdict = .accepted → ending = .accepted ending.rounds) :
    CountsRounds (s.finish ending) := by
  intro ending' hstate
  cases hstate
  exact h

open Session in
theorem CountsRounds.step {s s' : Session} (h : CountsRounds s) (hstep : Step s s') :
    CountsRounds s' := by
  cases hstep with
  | missed hstate hread =>
    intro ending hend
    exact absurd (hstate.symm.trans hend) nofun
  | opened hstate hread => nofun
  | unread hstate hread => exact countsRounds_finish _ nofun
  | refused hstate hread hguess =>
    refine countsRounds_finish _ ?_
    rw [refusal_verdict]
    nofun
  | unanswered hstate hread hguess hsend => exact countsRounds_finish _ nofun
  | answered hstate hread hguess hsend =>
    unfold settle
    split
    · exact countsRounds_finish _ nofun
    split
    · exact countsRounds_finish _ fun _ => rfl
    · nofun
  | stayed hstate => exact h

theorem accepted_of_run {settings : GuessingSettings} {judge contestant : Reader} {w : Writer}
    {ending : Ending} {s : Session}
    (h : (Session.new settings judge contestant w).run = (.ok ending, s))
    (hverdict : ending.verdict = .accepted) : ending = .accepted ending.rounds := by
  have hnew : CountsRounds (Session.new settings judge contestant w) := nofun
  obtain ⟨hstate, hcounts⟩ := Session.finished_of_run CountsRounds.step hnew h
  exact hcounts ending hstate hverdict

end Guessing

namespace Command

open Guessing

/-- The command has failed, has changed no file and reports nothing. -/
structure Interaction.Fails (i : Interaction) (fs : Files) (c : Complaint) : Prop where
  result : i.result = .error c
  files : i.files = fs
  silent : ∀ out err, i.deliver out err = (.error c, out, err)

theorem Interaction.fails (c : Complaint) (w : Writer) (fs : Files) :
    Interaction.Fails ⟨.error c, w, fs⟩ fs c :=
  ⟨rfl, rfl, fun _ _ => rfl⟩

section Game

variable {settings : Settings} {args : List String} {convention : Option Convention}
  {clock : Audit.Clock} {fs : Files} {contestant : Reader} {w : Writer} {b : Binding} {judge : Reader}

theorem prepare_of_bound {convention : Convention}
    (h : Binding.ofArguments convention.interactorLayout args = .ok b) :
    prepare settings args convention fs contestant w =
      match fs.openReader b.input with
      | .error fault => .error (.ofFault ("failed to open " ++ b.input) fault)
      | .ok judge => .ok (b, .new settings.guessing judge contestant w) := by
  rw [prepare, h]
  cases hopen : fs.openReader b.input with
  | error fault =>
    show ((fs.openReader b.input).mapError _ >>= _) = _
    rw [hopen]
    rfl
  | ok judge =>
    show ((fs.openReader b.input).mapError _ >>= _) = _
    rw [hopen]
    rfl

theorem refereeGame_of_unbound {e : Failure}
    (h : Binding.ofArguments (convention.getD settings.convention).interactorLayout args = .error e) :
    refereeGame settings args convention ⟨clock, none⟩ fs contestant w =
      ⟨.error (.ofFailure e), w, fs⟩ := by
  have hprepare : prepare settings args (convention.getD settings.convention) fs contestant w =
      .error (.ofFailure e) := by
    rw [prepare, h]
    rfl
  simp only [refereeGame, hprepare]

theorem refereeGame_of_unopened {fault : Fault}
    (hbind : Binding.ofArguments (convention.getD settings.convention).interactorLayout args = .ok b)
    (hopen : fs.openReader b.input = .error fault) :
    refereeGame settings args convention ⟨clock, none⟩ fs contestant w =
      ⟨.error (.ofFault ("failed to open " ++ b.input) fault), w, fs⟩ := by
  simp only [refereeGame, prepare_of_bound hbind, hopen]

section Opened

variable {s : Session}
  (hbind : Binding.ofArguments (convention.getD settings.convention).interactorLayout args = .ok b)
  (hopen : fs.openReader b.input = .ok judge)

include hbind hopen

theorem refereeGame_of_failed {e : Failure}
    (hrun : (Session.new settings.guessing judge contestant w).run = (.error e, s)) :
    refereeGame settings args convention ⟨clock, none⟩ fs contestant w =
      ⟨.error (.ofFailure e), s.toContestant, fs⟩ := by
  simp only [refereeGame, prepare_of_bound hbind, hopen, hrun, Audit.Recorder.record]

theorem refereeGame_of_ended {ending : Ending}
    (hrun : (Session.new settings.guessing judge contestant w).run = (.ok ending, s)) :
    refereeGame settings args convention ⟨clock, none⟩ fs contestant w =
      let (result, fs') := conclude (convention.getD settings.convention) b.output ending fs
      ⟨result, s.toContestant, fs'⟩ := by
  simp only [refereeGame, prepare_of_bound hbind, hopen, hrun, Audit.Recorder.record]

end Opened

end Game

/-! ## What follows from an ending -/

section Conclude

variable {convention : Convention} {output : String} {fs : Files}

theorem conclude_of_lost {ending : Ending} (h : ending.verdict ≠ .accepted) :
    conclude convention output ending fs =
      (.ok (convention.report (.new .wrongAnswer ending.message)), fs) := by
  cases hv : ending.verdict with
  | accepted => exact absurd hv h
  | wrongAnswer => simp only [conclude, hv, Verdict.isAccepted, Bool.false_eq_true, if_false]

theorem conclude_of_write_error {rounds : UInt32} {fault : Fault}
    (h : fs.write output (roundsLine rounds) = .error fault) :
    conclude convention output (.accepted rounds) fs = (.error (cannotCreate output fault), fs) := by
  simp only [conclude, Ending.accepted, Verdict.isAccepted, if_true, h]

theorem conclude_of_write_ok {rounds : UInt32} {fs' : Files}
    (h : fs.write output (roundsLine rounds) = .ok fs') :
    conclude convention output (.accepted rounds) fs =
      (.ok (convention.report (.new .accepted (Ending.accepted rounds).message)), fs') := by
  simp only [conclude, Ending.accepted, Verdict.isAccepted, if_true, h]

/-- Whatever the ending, only the output file can change. -/
theorem find?_conclude {ending : Ending} {p : Path} (h : fs.locate output ≠ .ok p) :
    (conclude convention output ending fs).2.find? p = fs.find? p := by
  simp only [conclude]
  split
  · split
    · rfl
    · rename_i hwrite
      obtain ⟨q, hadmits, hreplaces⟩ := Files.replaces_of_write hwrite
      refine hreplaces.others p ?_
      rintro rfl
      exact h hadmits.located
  · rfl

end Conclude

theorem roundsLine_eq (rounds : UInt32) :
    roundsLine rounds = Bytes.ofString (rounds.toNat.repr ++ "\n") := by
  rw [roundsLine, Bytes.ofString_append]
  rfl

/-- **Only an accepted game touches its output file, and none touches another.** Without a log, let the
arguments be bound to files or not, the input open or not and hold a target or not, and let the
contestant send and refuse what it likes. Then no file changes but the output file. It stays as it
is unless the session accepts; if it does and the path admits a file, this holds the number of rounds
that the report gives. Where anything fails, files and reports are left alone. -/
theorem refereeGame_output (settings : Settings) (args : List String) (convention : Option Convention)
    (clock : Audit.Clock) (fs : Files) (contestant : Reader) (w : Writer) :
    let c := convention.getD settings.convention
    let i := refereeGame settings args convention ⟨clock, none⟩ fs contestant w
    (∀ e, Binding.ofArguments c.interactorLayout args = .error e → i.Fails fs (.ofFailure e)) ∧
    ∀ b, Binding.ofArguments c.interactorLayout args = .ok b →
      (∀ p, fs.locate b.output ≠ .ok p → i.files.find? p = fs.find? p) ∧
      (∀ fault, fs.openReader b.input = .error fault →
        i.Fails fs (.ofFault ("failed to open " ++ b.input) fault)) ∧
      ∀ judge, fs.openReader b.input = .ok judge →
        (∀ e judge', NoTarget judge judge' e → i.Fails fs (.ofFailure e)) ∧
        ((∀ e judge', ¬ NoTarget judge judge' e) → ∃ ending s,
          (Session.new settings.guessing judge contestant w).run = (.ok ending, s) ∧
          i.toContestant = s.toContestant ∧
          (ending.verdict ≠ .accepted → i.files = fs ∧
            i.result = .ok (c.report (.new .wrongAnswer ending.message))) ∧
          (ending.verdict = .accepted →
            ((∀ p, ¬ fs.Admits b.output p) → ∃ fault, fs.openOrCreate b.output = .error fault ∧
              i.Fails fs (.ofFault ("failed to create " ++ b.output) fault)) ∧
            ∀ p, fs.Admits b.output p → ∃ k : Nat, k = ending.rounds.toNat ∧
              i.files.find? p = some (.file (Bytes.ofString (k.repr ++ "\n"))) ∧
              i.result = .ok (c.report (.new .accepted ("ok " ++ k.repr ++ " guesses"))))) := by
  intro c i
  refine ⟨?_, fun b hbind => ⟨?_, ?_, fun judge hopen => ⟨?_, ?_⟩⟩⟩
  · intro e hbind
    have hi : i = _ := refereeGame_of_unbound hbind
    rw [hi]
    exact Interaction.fails _ w fs
  · intro p hp
    rcases hopen : fs.openReader b.input with fault | judge
    · have hi : i = _ := refereeGame_of_unopened hbind hopen
      rw [hi]
    rcases hrun : (Session.new settings.guessing judge contestant w).run with ⟨e | ending, s⟩
    · have hi : i = _ := refereeGame_of_failed hbind hopen hrun
      rw [hi]
    · have hi : i = _ := refereeGame_of_ended hbind hopen hrun
      rw [hi]
      exact find?_conclude hp
  · intro fault hopen
    have hi : i = _ := refereeGame_of_unopened hbind hopen
    rw [hi]
    exact Interaction.fails _ w fs
  · intro e judge' hno
    have hrun := Session.run_eq_error_iff.mpr
      ((Session.step_eq_error_iff (s := .new settings.guessing judge contestant w)).mpr
        ⟨rfl, judge', hno, rfl⟩)
    have hi : i = _ := refereeGame_of_failed hbind hopen hrun
    rw [hi]
    exact Interaction.fails _ _ fs
  · intro htarget
    rcases hrun : (Session.new settings.guessing judge contestant w).run with ⟨e | ending, s⟩
    · obtain ⟨-, judge', hno, -⟩ := Session.step_eq_error_iff.mp (Session.run_eq_error_iff.mp hrun)
      exact absurd hno (htarget e judge')
    have hi : i = _ := refereeGame_of_ended hbind hopen hrun
    refine ⟨ending, s, rfl, by rw [hi], fun hlost => ?_, fun hverdict => ?_⟩
    · rw [hi, conclude_of_lost hlost]
      exact ⟨rfl, rfl⟩
    obtain ⟨rounds, rfl⟩ : ∃ rounds, ending = .accepted rounds := ⟨_, accepted_of_run hrun hverdict⟩
    constructor
    · intro hnone
      rcases hcreate : fs.openOrCreate b.output with fault | ⟨p, fs'⟩
      · have hwrite : fs.write b.output (roundsLine rounds) = .error fault := by
          rw [Files.write, hcreate]
        rw [hi, conclude_of_write_error hwrite]
        exact ⟨fault, rfl, Interaction.fails _ _ fs⟩
      · exact absurd (Files.openOrCreate_cases hcreate).1 (hnone p)
    · intro p hadmits
      obtain ⟨fs', hwrite⟩ := hadmits.exists_write (roundsLine rounds)
      obtain ⟨q, hq, hreplaces⟩ := Files.replaces_of_write hwrite
      cases hadmits.located.symm.trans hq.located
      rw [hi, conclude_of_write_ok hwrite]
      exact ⟨rounds.toNat, rfl, roundsLine_eq rounds ▸ hreplaces.written, rfl⟩

/-- The second answer fits the writer to the byte, and the output file held something before. -/
theorem refereeGame_output_won :
    let fs : Files :=
      ⟨[(["in"], .file (Bytes.ofString "50\n")), (["out"], .file (Bytes.ofString "old"))]⟩
    let i := refereeGame .standard ["in", "out", "answer"] none ⟨⟨.nil, fun _ => .epoch⟩, none⟩ fs
      (.ofTexts ["25 5", "0"]) { Writer.working with room := some 9 }
    i.files.find? ["out"] = some (.file (Bytes.ofString "2\n")) ∧
      i.files.find? ["in"] = some (.file (Bytes.ofString "50\n")) := by
  intro fs i
  have hbind : Binding.ofArguments (Convention.interactorLayout .plain) ["in", "out", "answer"] =
      .ok ⟨"in", "out", "answer"⟩ := by decide
  have hopen : fs.openReader "in" = .ok (.ofTexts ["50\n"]) := by decide +kernel
  have hrun : (Session.new .standard (.ofTexts ["50\n"]) (.ofTexts ["25 5", "0"])
      { Writer.working with room := some 9 }).run.1 = .ok (.accepted 2) := by decide +kernel
  obtain ⟨-, hbound⟩ := refereeGame_output .standard ["in", "out", "answer"] none
    ⟨.nil, fun _ => .epoch⟩ fs (.ofTexts ["25 5", "0"]) { Writer.working with room := some 9 }
  obtain ⟨hothers, -, hopened⟩ := hbound _ hbind
  have htarget : ∀ e judge', ¬ NoTarget (.ofTexts ["50\n"]) judge' e := by
    intro e judge' hno
    have hread : (Session.readTarget (.ofTexts ["50\n"])).1 = .ok 50 := by decide
    rw [readTarget_eq_error_iff.mpr hno] at hread
    cases hread
  obtain ⟨ending, s, hended, -, -, hwon⟩ := (hopened _ hopen).2 htarget
  cases hrun.symm.trans (congrArg Prod.fst hended)
  obtain ⟨k, rfl, hout, -⟩ := (hwon rfl).2 ["out"] ⟨by decide, by decide, by decide⟩
  exact ⟨hout, hothers ["in"] (by decide)⟩

end Command

end Referee
