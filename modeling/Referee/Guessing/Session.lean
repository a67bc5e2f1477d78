import Referee.Audit.Entry
import Referee.Channel
import Referee.Excerpt
import Referee.Settings

/-!
# The guessing session

The judge's stream holds a target. In each round the contestant sends a guess and is told whether
it is right, too high or too low, before the next guess is awaited. `Session.step` makes one
transition and `Session.run` goes on to the end. Only the judge's side makes a session fail: whatever
the contestant does ends in an `Ending`.
-/

namespace Referee.Guessing

inductive Signal where
  | ok
  | floats
  | sinks
  deriving DecidableEq, Repr

namespace Signal

/-- A guess above the target floats, one below it sinks. -/
def of (guess target : Int64) : Signal :=
  if guess = target then ok else if target < guess then floats else sinks

def text : Signal → String
  | ok => "OK"
  | floats => "FLOATS"
  | sinks => "SINKS"

end Signal

/-- How a session ended. -/
structure Ending where
  verdict : Verdict
  rounds : UInt32
  message : String
  deriving DecidableEq, Repr

namespace Ending

def accepted (rounds : UInt32) : Ending :=
  ⟨.accepted, rounds, "ok " ++ rounds.toNat.repr ++ " guesses"⟩

def tooManyGuesses (rounds : UInt32) : Ending :=
  ⟨.wrongAnswer, rounds, "too many guesses " ++ rounds.toNat.repr⟩

def channelClosed (rounds : UInt32) : Ending :=
  ⟨.wrongAnswer, rounds, "contestant channel closed after " ++ rounds.toNat.repr ++ " guesses"⟩

/-- A token as a message shows it. -/
def shown (token : Bytes) : String := (Excerpt.shorten token).toStringLossy

def outOfRange (rounds : UInt32) (token : Bytes) (lo hi : Int64) : Ending :=
  ⟨.wrongAnswer, rounds, "guess " ++ shown token ++ " out of range [" ++ lo.toInt.repr ++ ", "
    ++ hi.toInt.repr ++ "]"⟩

def notAnInteger (rounds : UInt32) (token : Bytes) : Ending :=
  ⟨.wrongAnswer, rounds, "expected an integer guess, found '" ++ shown token ++ "'"⟩

end Ending

inductive State where
  | awaitTarget
  | playing (target : Int64) (rounds : UInt32)
  | finished (ending : Ending)
  deriving DecidableEq

structure Session where
  settings : GuessingSettings
  judge : Reader
  contestant : Reader
  toContestant : Writer
  state : State
  trail : List Audit.Entry

def judgeChannel : String := "judge"

def contestantChannel : String := "contestant"

namespace Session

/-- A session before its first step. -/
def new (settings : GuessingSettings) (judge contestant : Reader) (toContestant : Writer) : Session :=
  ⟨settings, judge, contestant, toContestant, .awaitTarget, []⟩

def record (s : Session) (e : Audit.Entry) : Session := { s with trail := s.trail ++ [e] }

/-! ## The target -/

/-- The judge has no target to give, or what it gives is not one. -/
def targetFailure : Failure → Failure
  | .peerClosed _ => .protocol "judge input holds no target"
  | e => e

def badTarget (token : Bytes) : Failure :=
  .protocol ("judge target is not a 64-bit integer: '" ++ Ending.shown token ++ "'")

def readTarget (judge : Reader) : Except Failure Int64 × Reader :=
  match judge.readToken judgeChannel with
  | (.error e, judge) => (.error (targetFailure e), judge)
  | (.ok token, judge) =>
    match Decimal.readInteger token with
    | .value target => (.ok target, judge)
    | .outOfRange | .malformed => (.error (badTarget token), judge)

def startEntry (settings : GuessingSettings) : Audit.Entry :=
  .plain .sessionStart ("round limit " ++ settings.roundLimit.toNat.repr)

/-- Reads the target. A failure leaves the state as it is. -/
def begin (s : Session) : Except Failure Unit × Session :=
  match readTarget s.judge with
  | (.error e, judge) =>
    (.error e, { s with judge := judge }.record
      ((Audit.Entry.plain .protocolError e.message).withChannel judgeChannel))
  | (.ok target, judge) =>
    (.ok (), { s with judge := judge, state := .playing target 0 }.record (startEntry s.settings))

/-! ## Rounds -/

def finish (s : Session) (e : Ending) : Session :=
  { s with state := .finished e }.record
    (((Audit.Entry.plain .sessionEnd e.message).withRound e.rounds).withVerdict e.verdict)

/-- Ends a session whose contestant cannot be read from or written to. -/
def loseContestant (s : Session) (rounds : UInt32) (e : Failure) : Session :=
  (s.record ((Audit.Entry.plain .peerClosed e.message).withChannel contestantChannel)).finish
    (.channelClosed rounds)

def roundEntry (guess : Int64) (signal : Signal) (rounds : UInt32) : Audit.Entry :=
  (Audit.Entry.plain .round ("guess " ++ guess.toInt.repr ++ " -> " ++ signal.text)).withRound rounds

/-- Answers a guess in the range. -/
def answer (s : Session) (target guess : Int64) (rounds : UInt32) : Session :=
  let signal := Signal.of guess target
  match s.toContestant.sendLine contestantChannel signal.text with
  | (.error e, w) => { s with toContestant := w }.loseContestant rounds e
  | (.ok (), w) =>
    let rounds := rounds + 1
    let s := { s with toContestant := w }.record (roundEntry guess signal rounds)
    if s.settings.roundLimit < rounds then s.finish (.tooManyGuesses rounds)
    else if signal = .ok then s.finish (.accepted rounds)
    else { s with state := .playing target rounds }

/-- Judges a token that the contestant has sent. -/
def judgeToken (s : Session) (target : Int64) (rounds : UInt32) (token : Bytes) : Session :=
  let outOfRange := Ending.outOfRange rounds token s.settings.guessMin s.settings.guessMax
  match Decimal.readInteger token with
  | .value guess =>
    if s.settings.guessMin ≤ guess ∧ guess ≤ s.settings.guessMax then s.answer target guess rounds
    else s.finish outOfRange
  | .outOfRange => s.finish outOfRange
  | .malformed => s.finish (.notAnInteger rounds token)

def playRound (s : Session) (target : Int64) (rounds : UInt32) : Session :=
  match s.contestant.readToken contestantChannel with
  | (.error e, r) => { s with contestant := r }.loseContestant rounds e
  | (.ok token, r) => { s with contestant := r }.judgeToken target rounds token

/-! ## Steps and runs -/

/-- One transition. A finished session stays as it is. -/
def step (s : Session) : Except Failure Unit × Session :=
  match s.state with
  | .awaitTarget => s.begin
  | .playing target rounds => (.ok (), s.playRound target rounds)
  | .finished _ => (.ok (), s)

/-- A bound on the steps that are left. -/
def remaining (s : Session) : Nat :=
  match s.state with
  | .awaitTarget => s.contestant.size + 2
  | .playing .. => s.contestant.size + 1
  | .finished _ => 0

theorem remaining_finish (s : Session) (e : Ending) : (s.finish e).remaining = 0 := rfl

theorem remaining_loseContestant (s : Session) (rounds : UInt32) (e : Failure) :
    (s.loseContestant rounds e).remaining = 0 := rfl

theorem remaining_answer_le (s : Session) (target guess : Int64) (rounds : UInt32) :
    (s.answer target guess rounds).remaining ≤ s.contestant.size + 1 := by
  simp only [answer]
  split
  · simp [remaining_loseContestant]
  · split
    · simp [remaining_finish]
    · split
      · simp [remaining_finish]
      · simp [remaining, record]

theorem remaining_judgeToken_le (s : Session) (target : Int64) (rounds : UInt32) (token : Bytes) :
    (s.judgeToken target rounds token).remaining ≤ s.contestant.size + 1 := by
  simp only [judgeToken]
  split
  · split
    · exact remaining_answer_le ..
    · simp [remaining_finish]
  · simp [remaining_finish]
  · simp [remaining_finish]

theorem remaining_playRound_lt (s : Session) (target : Int64) (rounds : UInt32) :
    (s.playRound target rounds).remaining < s.contestant.size + 1 := by
  unfold playRound
  split
  · simp [remaining_loseContestant]
  · rename_i token r h
    have := Reader.size_readToken h
    have : _ ≤ Reader.size r + 1 :=
      remaining_judgeToken_le { s with contestant := r } target rounds token
    omega

/-- A step that does not fail makes progress until the session is finished. -/
theorem remaining_step_lt {s s' : Session} (h : s.step = (.ok (), s')) (hs : s.remaining ≠ 0) :
    s'.remaining < s.remaining := by
  unfold step at h
  split at h
  · rename_i state
    unfold begin at h
    split at h
    · simp at h
    · simp only [Prod.mk.injEq, true_and] at h
      subst h
      simp [remaining, record, state]
  · rename_i target rounds state
    simp only [Prod.mk.injEq, true_and] at h
    subst h
    have := remaining_playRound_lt s target rounds
    simpa [remaining, state] using this
  · rename_i state
    simp [remaining, state] at hs

/-- Runs a session to its end. -/
def run (s : Session) : Except Failure Ending × Session :=
  match _state : s.state with
  | .finished e => (.ok e, s)
  | .awaitTarget | .playing .. =>
    match _h : s.step with
    | (.error e, s') => (.error e, s')
    | (.ok (), s') => s'.run
termination_by s.remaining
decreasing_by all_goals exact remaining_step_lt _h (by simp [remaining, _state])

end Session

end Referee.Guessing
