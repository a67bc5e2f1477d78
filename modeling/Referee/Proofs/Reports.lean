import Referee.Proofs.Channel
import Referee.Proofs.Guessing.Round
import Referee.Proofs.Messages

/-!
# Reports that output cannot corrupt

`Convention.printout` lists the lines that each convention puts on the two streams and its exit code.
A ruling whose message makes a line is delivered as just these lines (`report_yields`); the messages
of checkers and of guessing sessions do (`oneLine_of_run`), whatever was sent to be judged.
-/

namespace Referee

/-! ## Writing lines -/

/-- A stream has gained these lines and passed them on; a reader finds each as a line. -/
structure Writer.Prints (w w' : Writer) (ls : List String) : Prop where
  written : w'.written = w.written ++ ls.flatMap Report.lineBytes
  lines : lines (ls.flatMap Report.lineBytes) = ls.map Bytes.ofString
  flushed : w'.Flushed

namespace Report

/-- The lines for one stream. -/
def on (r : Report) (stream : OutputStream) : List String :=
  (r.lines.filter (·.1 == stream)).map (·.2)

theorem flatMap_on (r : Report) (stream : OutputStream) :
    (r.on stream).flatMap lineBytes = r.text stream :=
  List.flatMap_map ..

section Reliable

variable {out err : Writer}

theorem writeLines_of_reliable (hout : out.Reliable) (herr : err.Reliable)
    (ls : List (OutputStream × String)) (code : Nat) :
    writeLines ls out err = (.ok (), { out with written := out.written ++ text ⟨ls, code⟩ .out },
      { err with written := err.written ++ text ⟨ls, code⟩ .err }) := by
  induction ls generalizing out err with
  | nil => simp [writeLines, text]
  | cons l ls ih =>
    obtain ⟨stream, line⟩ := l
    cases stream with
    | out =>
      have hwrite : out.write (lineBytes line) =
          (.ok (), { out with written := out.written ++ lineBytes line }) := by
        rw [Writer.write, hout.1]
      have hout' : Writer.Reliable { out with written := out.written ++ lineBytes line } := hout
      rw [writeLines, hwrite]
      simp only
      rw [ih hout' herr]
      simp [text]
    | err =>
      have hwrite : err.write (lineBytes line) =
          (.ok (), { err with written := err.written ++ lineBytes line }) := by
        rw [Writer.write, herr.1]
      have herr' : Writer.Reliable { err with written := err.written ++ lineBytes line } := herr
      rw [writeLines, hwrite]
      simp only
      rw [ih hout herr']
      simp [text]

/-- On two working streams every line arrives on its own. -/
theorem deliver_of_reliable (hout : out.Reliable) (herr : err.Reliable) (r : Report)
    (hlines : ∀ stream, ∀ line ∈ r.on stream, Unbroken (Bytes.ofString line)) :
    ∃ out' err', r.deliver out err = (.ok r.code, out', err') ∧
      out.Prints out' (r.on .out) ∧ err.Prints err' (r.on .err) := by
  have hprints : ∀ (w : Writer) (stream : OutputStream), w.Prints { w with
      written := w.written ++ r.text stream
      flushed := (w.written ++ r.text stream).length } (r.on stream) := fun w stream => by
    refine ⟨by rw [flatMap_on], lines_flatMap (hlines stream), rfl⟩
  refine ⟨_, _, ?_, hprints out .out, hprints err .err⟩
  rw [deliver, writeLines_of_reliable hout herr r.lines r.code]
  simp only [Writer.flush, hout.2, herr.2]

end Reliable

end Report

/-! ## What a convention prints -/

/-- What a judging system gets to see. -/
structure Printout where
  out : List String
  err : List String
  code : Nat

/-- The report is delivered as the printout. -/
def Report.Yields (r : Report) (out err : Writer) (p : Printout) : Prop :=
  ∃ out' err', r.deliver out err = (.ok p.code, out', err') ∧
    out.Prints out' p.out ∧ err.Prints err' p.err

/-- The line for the score. -/
def Verdict.scoreLine : Verdict → String
  | accepted => "1"
  | wrongAnswer => "0"

/-- The line that stands for a translated text. -/
def Verdict.tagLine : Verdict → String
  | accepted => "translate:success"
  | wrongAnswer => "translate:wrong"

/-- The lines and the exit code of a verdict; `layout` says whether the layout is to blame. -/
def Convention.printout (verdict : Verdict) (layout : Bool) (message : String) :
    Convention → Printout
  | plain => ⟨[verdict.scoreLine], [message], 0⟩
  | testlib =>
    match verdict, layout with
    | .accepted, _ => ⟨[], ["ok " ++ message], 0⟩
    | .wrongAnswer, true => ⟨[], ["wrong output format " ++ message], 2⟩
    | .wrongAnswer, false => ⟨[], ["wrong answer " ++ message], 1⟩
  | cms => ⟨[verdict.scoreLine], [verdict.tagLine, message], 0⟩
  | themis => ⟨[message, verdict.scoreLine], [], 0⟩

/-- Full score for an accepted answer and none otherwise. -/
def Ruling.AllOrNothing (r : Ruling) : Prop := r.score = if r.verdict.isAccepted then 1.0 else 0.0

section Yields

variable {r : Ruling} {out err : Writer}

theorem plain_score (h : r.AllOrNothing) : Decimal.plain r.score = r.verdict.scoreLine := by
  have hone : Decimal.plain 1.0 = "1" := by decide +kernel
  have hzero : Decimal.plain 0.0 = "0" := by decide +kernel
  rw [h]
  cases r.verdict with
  | accepted => exact hone
  | wrongAnswer => exact hzero

theorem cmsTag_eq (h : r.AllOrNothing) : Convention.cmsTag r = r.verdict.tagLine := by
  have hfull : ¬ (1.0 : Float) < 1.0 := by decide +kernel
  unfold Convention.cmsTag
  cases hv : r.verdict with
  | accepted =>
    have hscore : r.score = 1.0 := by rw [h, hv]; rfl
    rw [hscore]
    exact if_neg hfull
  | wrongAnswer => rfl

theorem Convention.oneLine_printout (c : Convention) (verdict : Verdict) (layout : Bool)
    {message line : String} (h : OneLine message)
    (hline : line ∈ (c.printout verdict layout message).out ∨
      line ∈ (c.printout verdict layout message).err) : OneLine line := by
  have hscore : OneLine verdict.scoreLine := by cases verdict <;> decide
  have htag : OneLine verdict.tagLine := by cases verdict <;> decide
  have hopened : ∀ opening, OneLine opening → ∀ code, c.printout verdict layout message =
      ⟨[], [opening ++ message], code⟩ → OneLine line := by
    intro opening hopening code hp
    rw [hp] at hline
    obtain rfl := List.mem_singleton.mp (hline.resolve_left List.not_mem_nil)
    exact hopening.append h.unbroken
  cases c with
  | plain =>
    simp only [printout, List.mem_singleton] at hline
    rcases hline with rfl | rfl <;> assumption
  | testlib =>
    match verdict, layout with
    | .accepted, _ => exact hopened "ok " (by decide) 0 rfl
    | .wrongAnswer, true => exact hopened "wrong output format " (by decide) 2 rfl
    | .wrongAnswer, false => exact hopened "wrong answer " (by decide) 1 rfl
  | cms =>
    simp only [printout, List.mem_singleton, List.mem_pair] at hline
    rcases hline with rfl | rfl | rfl <;> assumption
  | themis =>
    simp only [printout, List.mem_pair, List.not_mem_nil, or_false] at hline
    rcases hline with rfl | rfl <;> assumption

/-- **A ruling with a message of one line is delivered as its convention's lines.** -/
theorem Convention.report_yields (c : Convention) (h : r.AllOrNothing) (hline : OneLine r.message)
    (hout : out.Reliable) (herr : err.Reliable) :
    (c.report r).Yields out err (c.printout r.verdict r.presentationError r.message) := by
  generalize hp : c.printout r.verdict r.presentationError r.message = p
  have hmessage : ∀ stream, messageLine stream r = [(stream, r.message)] := fun stream =>
    if_neg (by simpa using hline.ne_empty)
  have hreport : (c.report r).on .out = p.out ∧ (c.report r).on .err = p.err ∧
      (c.report r).code = p.code := by
    subst hp
    cases c with
    | plain => simp [report, printout, Report.on, hmessage, plain_score h]
    | testlib =>
      simp only [report, testlibStatus, Report.on, printout]
      cases r.verdict with
      | accepted => exact ⟨rfl, rfl, rfl⟩
      | wrongAnswer => cases r.presentationError <;> exact ⟨rfl, rfl, rfl⟩
    | cms => simp [report, printout, Report.on, hmessage, plain_score h, cmsTag_eq h]
    | themis => simp [report, printout, Report.on, hmessage, plain_score h]
  obtain ⟨hon, hon', hcode⟩ := hreport
  have hunbroken : ∀ stream, ∀ line ∈ (c.report r).on stream, Unbroken (Bytes.ofString line) := by
    intro stream line hmem
    refine (oneLine_printout c r.verdict r.presentationError hline ?_).unbroken
    rw [hp, ← hon, ← hon']
    cases stream with
    | out => exact .inl hmem
    | err => exact .inr hmem
  obtain ⟨out', err', hdeliver, houtLines, herrLines⟩ :=
    Report.deliver_of_reliable hout herr (c.report r) hunbroken
  rw [hcode] at hdeliver
  rw [hon] at houtLines
  rw [hon'] at herrLines
  exact ⟨out', err', hdeliver, houtLines, herrLines⟩

end Yields

/-! ## Rulings on outcomes -/

/-- A ruling blames the layout of a rejected answer whose headline does so. -/
theorem Ruling.presentationError_ofOutcome (o : Outcome) :
    (Ruling.ofOutcome o).presentationError = true ↔ o.verdict = .wrongAnswer ∧
      ∃ f, o.feedback = some f ∧ "Presentation Error".toList <+: f.toList := by
  have hpresentation : o.isPresentationError = true ↔
      ∃ f, o.feedback = some f ∧ "Presentation Error".toList <+: f.toList := by
    rw [Outcome.isPresentationError, Option.any_eq_true]
    simp only [List.isPrefixOf_iff_prefix]
    exact Iff.rfl
  have hpassed : o.passed = false ↔ o.verdict = .wrongAnswer := by
    unfold Outcome.passed Verdict.isAccepted
    cases o.verdict <;> simp
  rw [← hpresentation, ← hpassed]
  show (!o.passed && o.isPresentationError) = true ↔ _
  rw [Bool.and_eq_true, Bool.not_eq_true']

theorem Ruling.allOrNothing_new (verdict : Verdict) (message : String) :
    (Ruling.new verdict message).AllOrNothing := rfl

theorem Ruling.allOrNothing_ofOutcome (o : Outcome) : (Ruling.ofOutcome o).AllOrNothing := rfl

/-! ## The messages of sessions -/

namespace Guessing

namespace Ending

theorem oneLine_shown {token : Bytes} (ht : IsToken token) : OneLine (shown token) :=
  IsLine.oneLine ⟨Excerpt.shorten_ne_nil ht.1, Excerpt.unbroken_shorten ht.unbroken⟩

theorem oneLine_accepted (rounds : UInt32) : OneLine (accepted rounds).message :=
  (OneLine.append (by decide) (oneLine_repr rounds.toNat).unbroken).append (by decide)

theorem oneLine_tooManyGuesses (rounds : UInt32) : OneLine (tooManyGuesses rounds).message :=
  OneLine.append (by decide) (oneLine_repr rounds.toNat).unbroken

theorem oneLine_channelClosed (rounds : UInt32) : OneLine (channelClosed rounds).message :=
  (OneLine.append (by decide) (oneLine_repr rounds.toNat).unbroken).append (by decide)

theorem oneLine_notAnInteger (rounds : UInt32) {token : Bytes} (ht : IsToken token) :
    OneLine (notAnInteger rounds token).message :=
  (OneLine.append (by decide) (oneLine_shown ht).unbroken).append (by decide)

theorem oneLine_outOfRange (rounds : UInt32) {token : Bytes} (ht : IsToken token) (lo hi : Int64) :
    OneLine (outOfRange rounds token lo hi).message := by
  have hguess : OneLine ("guess " ++ shown token) :=
    OneLine.append (by decide) (oneLine_shown ht).unbroken
  have hrange : OneLine ("guess " ++ shown token ++ " out of range [" ++ lo.toInt.repr) :=
    (hguess.append (by decide)).append (unbroken_repr_int lo.toInt)
  exact ((hrange.append (by decide)).append (unbroken_repr_int hi.toInt)).append (by decide)

end Ending

open Session

theorem oneLine_refusal (settings : GuessingSettings) (rounds : UInt32) {token : Bytes}
    (ht : IsToken token) : OneLine (refusal settings rounds token).message := by
  unfold refusal
  split
  · exact Ending.oneLine_notAnInteger rounds ht
  · exact Ending.oneLine_outOfRange rounds ht _ _
  · exact Ending.oneLine_outOfRange rounds ht _ _

/-- Where the session has ended, its message makes a line. -/
def EndsInLine (s : Session) : Prop := ∀ ending, s.state = .finished ending → OneLine ending.message

theorem endsInLine_finish (s : Session) {ending : Ending} (h : OneLine ending.message) :
    EndsInLine (s.finish ending) := by
  intro ending' hstate
  cases hstate
  exact h

theorem EndsInLine.step {s s' : Session} (h : EndsInLine s) (hstep : Step s s') : EndsInLine s' := by
  cases hstep with
  | missed hstate hread =>
    intro ending hend
    exact absurd (hstate.symm.trans hend) nofun
  | opened hstate hread => nofun
  | unread hstate hread => exact endsInLine_finish _ (Ending.oneLine_channelClosed _)
  | refused hstate hread hguess =>
    exact endsInLine_finish _ (oneLine_refusal _ _ (Reader.isToken_of_readToken hread))
  | unanswered hstate hread hguess hsend =>
    exact endsInLine_finish _ (Ending.oneLine_channelClosed _)
  | answered hstate hread hguess hsend =>
    unfold settle
    split
    · exact endsInLine_finish _ (Ending.oneLine_tooManyGuesses _)
    split
    · exact endsInLine_finish _ (Ending.oneLine_accepted _)
    · nofun
  | stayed hstate => exact h

/-- **Every session ends with a message of one line**, whatever tokens the contestant has sent. -/
theorem oneLine_of_run {settings : GuessingSettings} {judge contestant : Reader} {w : Writer}
    {ending : Ending} {s : Session}
    (h : (Session.new settings judge contestant w).run = (.ok ending, s)) : OneLine ending.message := by
  have hnew : EndsInLine (Session.new settings judge contestant w) := nofun
  obtain ⟨hstate, hline⟩ := finished_of_run EndsInLine.step hnew h
  exact hline ending hstate

end Guessing

/-! ## Checks and sessions reported -/

theorem Checker.exists_ofSettings {s : CheckerSettings} (h : s.name ∈
    ["standard", "linecount", "identical", "floats", "floatsabs", "floatsrel"]) :
    ∃ c, Checker.ofSettings s = .ok c := by
  have hsome : ∃ c, Checker.ofSettings? s = some c := by
    simp only [List.mem_cons, List.not_mem_nil, or_false] at h
    unfold Checker.ofSettings?
    rcases h with h | h | h | h | h | h <;> rw [h] <;> exact ⟨_, rfl⟩
  obtain ⟨c, hc⟩ := hsome
  exact ⟨c, by rw [Checker.ofSettings, hc]⟩

open Guessing in
/-- **Output cannot corrupt a report.** Whatever two outputs a known checker is given, the message of
its ruling makes a line, and two working streams gain the lines of the convention's printout, each as
a line, and nothing else. The same holds of the message that a guessing session ends with. -/
theorem report_uncorrupted {s : CheckerSettings} (hname : s.name ∈
      ["standard", "linecount", "identical", "floats", "floatsabs", "floatsrel"])
    (expected actual : Bytes) (convention : Convention) {out err : Writer} (hout : out.Reliable)
    (herr : err.Reliable) :
    (∃ c, Checker.ofSettings s = .ok c ∧
      let outcome := c.check expected actual
      let ruling := Ruling.ofOutcome outcome
      OneLine ruling.message ∧ ∃ layout : Bool,
        (layout = true ↔ outcome.verdict = .wrongAnswer ∧
          ∃ f, outcome.feedback = some f ∧ "Presentation Error".toList <+: f.toList) ∧
        (convention.report ruling).Yields out err
          (convention.printout outcome.verdict layout ruling.message)) ∧
    ∀ (settings : GuessingSettings) (judge contestant : Reader) (w : Writer) (ending : Ending)
      (session : Session), (Session.new settings judge contestant w).run = (.ok ending, session) →
        OneLine ending.message ∧ (convention.report (.new ending.verdict ending.message)).Yields out err
          (convention.printout ending.verdict false ending.message) := by
  constructor
  · obtain ⟨c, hc⟩ := Checker.exists_ofSettings hname
    have hline : OneLine (Ruling.ofOutcome (c.check expected actual)).message :=
      (c.check_presentable expected actual).oneLine
    refine ⟨c, hc, hline, _, Ruling.presentationError_ofOutcome _, ?_⟩
    exact convention.report_yields (Ruling.allOrNothing_ofOutcome _) hline hout herr
  · intro settings judge contestant w ending session hrun
    have hline := oneLine_of_run hrun
    exact ⟨hline, convention.report_yields (r := .new ending.verdict ending.message)
      (Ruling.allOrNothing_new _ _) hline hout herr⟩

open Guessing in
/-- The contestant's token is no text, and its line ends in a carriage return. -/
theorem report_uncorrupted_illFormed :
    let s : CheckerSettings := { CheckerSettings.standard with name := "linecount" }
    let actual : Bytes := [97, 32, 0xC3, 0x28, 13, 10, 99]
    (∃ c, Checker.ofSettings s = .ok c ∧
      let outcome := c.check (Bytes.ofString "a b\nc\n") actual
      let ruling := Ruling.ofOutcome outcome
      OneLine ruling.message ∧ ∃ layout : Bool,
        (layout = true ↔ outcome.verdict = .wrongAnswer ∧
          ∃ f, outcome.feedback = some f ∧ "Presentation Error".toList <+: f.toList) ∧
        (Convention.testlib.report ruling).Yields .working .working
          (Convention.testlib.printout outcome.verdict layout ruling.message)) ∧
    ∀ (settings : GuessingSettings) (judge contestant : Reader) (w : Writer) (ending : Ending)
      (session : Session), (Session.new settings judge contestant w).run = (.ok ending, session) →
        OneLine ending.message ∧
          (Convention.testlib.report (.new ending.verdict ending.message)).Yields .working .working
            (Convention.testlib.printout ending.verdict false ending.message) :=
  report_uncorrupted (by decide) _ _ .testlib ⟨rfl, rfl⟩ ⟨rfl, rfl⟩

end Referee
