import Mathlib.Logic.Relation
import Referee.Guessing.Session
import Referee.Proofs.Channel

/-!
# One step of the guessing session

A round comes to one of four things: the contestant is lost while its token is read, its token is
refused, it is lost while it is answered, or it is answered. Each has one equation here, and
`settle` is what follows an answer. `Step` lists everything that a step can do. `run` and `step`
are opened only in this module.

The answers are spelled out in `signalWord` and `signalLine`; the signal that a round computes has
that word (`Signal.text_of`), and sending it writes that line (`written_of_sent`).
-/

namespace Referee

/-- The guess that a token makes, if it is an integer of the range. -/
def GuessingSettings.guess? (settings : GuessingSettings) (token : Bytes) : Option Int64 :=
  match Decimal.readInteger token with
  | .value guess =>
    if settings.guessMin ≤ guess ∧ guess ≤ settings.guessMax then some guess else none
  | .outOfRange | .malformed => none

theorem GuessingSettings.guess?_eq_some_iff {settings : GuessingSettings} {token : Bytes}
    {guess : Int64} : settings.guess? token = some guess ↔
      Decimal.readInteger token = .value guess ∧
        settings.guessMin ≤ guess ∧ guess ≤ settings.guessMax := by
  unfold guess?
  split
  · rename_i g h
    rw [h]
    by_cases hr : settings.guessMin ≤ g ∧ g ≤ settings.guessMax
    · rw [if_pos hr, Option.some.injEq, Decimal.IntegerToken.value.injEq]
      exact ⟨fun e => ⟨e, e ▸ hr⟩, fun h => h.1⟩
    · rw [if_neg hr]
      refine ⟨nofun, fun ⟨e, h⟩ => absurd ?_ hr⟩
      rwa [Decimal.IntegerToken.value.inj e]
  all_goals
    rename_i h
    rw [h]
    exact ⟨nofun, nofun⟩

namespace Guessing

theorem Signal.of_eq_ok_iff {guess target : Int64} : Signal.of guess target = .ok ↔ guess = target := by
  unfold Signal.of
  by_cases h : guess = target
  · rw [if_pos h]
    exact iff_of_true rfl h
  · rw [if_neg h]
    refine iff_of_false ?_ h
    split <;> simp

/-- The word that answers a guess: it hits the target, or it is above or below it. -/
def signalWord (target guess : Int64) : String :=
  if guess = target then "OK" else if target < guess then "FLOATS" else "SINKS"

theorem signalWord_self (target : Int64) : signalWord target target = "OK" := if_pos rfl

theorem Signal.text_of (guess target : Int64) :
    (Signal.of guess target).text = signalWord target guess := by
  unfold Signal.of signalWord
  split
  · rfl
  · split <;> rfl

/-- The line that answers a guess. -/
def signalLine (target guess : Int64) : Bytes := Bytes.ofString (signalWord target guess ++ "\n")

/-- The lines that answer the guesses. -/
def signalLines (target : Int64) (guesses : List Int64) : Bytes := guesses.flatMap (signalLine target)

example : signalLines 50 [25, 75, 50] = Bytes.ofString "SINKS\nFLOATS\nOK\n" := by decide

theorem signalLines_append (target : Int64) (gs hs : List Int64) :
    signalLines target (gs ++ hs) = signalLines target gs ++ signalLines target hs := by
  simp [signalLines]

theorem signalLines_singleton (target guess : Int64) :
    signalLines target [guess] = signalLine target guess := by
  simp [signalLines]

theorem signalLines_snoc (target guess : Int64) (gs : List Int64) :
    signalLines target (gs ++ [guess]) = signalLines target gs ++ signalLine target guess := by
  rw [signalLines_append, signalLines_singleton]

theorem signalLine_self (target : Int64) : signalLine target target = Bytes.ofString "OK\n" := by
  rw [signalLine, signalWord_self]
  rfl

theorem lineBytes_signalWord (target guess : Int64) :
    Writer.lineBytes (signalWord target guess) = signalLine target guess := by
  rw [Writer.lineBytes, signalLine, Bytes.ofString_append]
  rfl

section Send

variable {target guess : Int64} {channel : String} {w w' : Writer}

/-- An answer that has been sent is its whole line, and nothing of it is held back. -/
theorem written_of_sent (h : w.sendLine channel (signalWord target guess) = (.ok (), w')) :
    w'.written = w.written ++ signalLine target guess ∧ w'.Flushed := by
  obtain ⟨p, -, hwritten, hall⟩ := w.sendLine_accepts channel (signalWord target guess)
  rw [h] at hwritten hall
  obtain ⟨rfl, hflushed⟩ := hall rfl
  rw [lineBytes_signalWord] at hwritten
  exact ⟨hwritten, hflushed⟩

/-- An answer that breaks off is a beginning of its line. -/
theorem written_of_unsent {e : Failure}
    (h : w.sendLine channel (signalWord target guess) = (.error e, w')) :
    ∃ p, p <+: signalLine target guess ∧ w'.written = w.written ++ p := by
  obtain ⟨p, hp, hwritten, -⟩ := w.sendLine_accepts channel (signalWord target guess)
  rw [h] at hwritten
  rw [lineBytes_signalWord] at hp
  exact ⟨p, hp, hwritten⟩

end Send

/-- How a token that makes no guess ends the session. -/
def refusal (settings : GuessingSettings) (rounds : UInt32) (token : Bytes) : Ending :=
  match Decimal.readInteger token with
  | .malformed => .notAnInteger rounds token
  | .value _ | .outOfRange => .outOfRange rounds token settings.guessMin settings.guessMax

theorem refusal_of_malformed {settings : GuessingSettings} {rounds : UInt32} {token : Bytes}
    (h : Decimal.readInteger token = .malformed) :
    refusal settings rounds token = .notAnInteger rounds token := by
  rw [refusal, h]

theorem refusal_of_ne_malformed {settings : GuessingSettings} {rounds : UInt32} {token : Bytes}
    (h : Decimal.readInteger token ≠ .malformed) : refusal settings rounds token =
      .outOfRange rounds token settings.guessMin settings.guessMax := by
  rw [refusal]
  split
  · exact absurd ‹_› h
  all_goals rfl

theorem refusal_rounds (settings : GuessingSettings) (rounds : UInt32) (token : Bytes) :
    (refusal settings rounds token).rounds = rounds := by
  unfold refusal
  split <;> rfl

theorem refusal_verdict (settings : GuessingSettings) (rounds : UInt32) (token : Bytes) :
    (refusal settings rounds token).verdict = .wrongAnswer := by
  unfold refusal
  split <;> rfl

/-- The round counter counts on below its last value. -/
theorem toNat_succ {rounds : UInt32} (h : rounds.toNat + 1 < UInt32.size) :
    (rounds + 1).toNat = rounds.toNat + 1 := by
  rw [UInt32.toNat_add, UInt32.toNat_one, Nat.mod_eq_of_lt h]

namespace Session

/-! ## The four ways of a round -/

/-- What follows an answered guess. -/
def settle (s : Session) (target guess : Int64) (rounds : UInt32) : Session :=
  if s.settings.roundLimit < rounds then s.finish (.tooManyGuesses rounds)
  else if guess = target then s.finish (.accepted rounds)
  else { s with state := .playing target rounds }

theorem state_settle_ne (s : Session) (target guess : Int64) (rounds : UInt32) :
    (s.settle target guess rounds).state ≠ .awaitTarget := by
  unfold settle
  split
  · nofun
  · split <;> nofun

section Round

variable {s : Session} {target guess : Int64} {rounds : UInt32} {token : Bytes} {r : Reader}
  {w : Writer} {e : Failure}

theorem playRound_of_unread (h : s.contestant.readToken contestantChannel = (.error e, r)) :
    s.playRound target rounds = { s with contestant := r }.loseContestant rounds e := by
  rw [playRound, h]

theorem judgeToken_of_refused (h : s.settings.guess? token = none) :
    s.judgeToken target rounds token = s.finish (refusal s.settings rounds token) := by
  unfold GuessingSettings.guess? at h
  rw [judgeToken, refusal]
  split at h
  · rename_i g hg
    rw [hg]
    have hr : ¬ (s.settings.guessMin ≤ g ∧ g ≤ s.settings.guessMax) := fun hr => by
      rw [if_pos hr] at h
      cases h
    exact if_neg hr
  all_goals
    rename_i hg
    rw [hg]

theorem judgeToken_of_guess (h : s.settings.guess? token = some guess) :
    s.judgeToken target rounds token = s.answer target guess rounds := by
  obtain ⟨hread, hr⟩ := GuessingSettings.guess?_eq_some_iff.mp h
  rw [judgeToken, hread]
  exact if_pos hr

theorem playRound_of_refused (h : s.contestant.readToken contestantChannel = (.ok token, r))
    (hg : s.settings.guess? token = none) :
    s.playRound target rounds =
      { s with contestant := r }.finish (refusal s.settings rounds token) := by
  rw [playRound, h]
  exact judgeToken_of_refused hg

theorem playRound_of_unanswered (h : s.contestant.readToken contestantChannel = (.ok token, r))
    (hg : s.settings.guess? token = some guess)
    (hs : s.toContestant.sendLine contestantChannel (signalWord target guess) = (.error e, w)) :
    s.playRound target rounds =
      { s with contestant := r, toContestant := w }.loseContestant rounds e := by
  have hj : { s with contestant := r }.judgeToken target rounds token = _ := judgeToken_of_guess hg
  rw [playRound, h]
  simp only [hj, answer, Signal.text_of, hs]

theorem playRound_of_answered (h : s.contestant.readToken contestantChannel = (.ok token, r))
    (hg : s.settings.guess? token = some guess)
    (hs : s.toContestant.sendLine contestantChannel (signalWord target guess) = (.ok (), w)) :
    s.playRound target rounds =
      ({ s with contestant := r, toContestant := w }.record
        (roundEntry guess (Signal.of guess target) (rounds + 1))).settle target guess (rounds + 1) := by
  have hj : { s with contestant := r }.judgeToken target rounds token = _ := judgeToken_of_guess hg
  rw [playRound, h]
  simp only [hj, answer, Signal.text_of, hs, settle, Signal.of_eq_ok_iff]

end Round

/-! ## Steps -/

theorem readTarget_eq_ok_iff {judge judge' : Reader} {target : Int64} :
    readTarget judge = (.ok target, judge') ↔ ∃ token,
      judge.readToken judgeChannel = (.ok token, judge') ∧
        Decimal.readInteger token = .value target := by
  rw [readTarget]
  constructor
  · intro h
    split at h
    · cases h
    · rename_i token judge'' hread
      split at h
      · rename_i target' htarget
        cases h
        exact ⟨token, hread, htarget⟩
      all_goals cases h
  · rintro ⟨token, hread, htarget⟩
    rw [hread]
    simp only [htarget]

/-- What a step can come to. -/
inductive Step (s : Session) : Session → Prop where
  | missed {e : Failure} {judge : Reader} (hstate : s.state = .awaitTarget)
      (hread : readTarget s.judge = (.error e, judge)) :
      Step s ({ s with judge := judge }.record
        ((Audit.Entry.plain .protocolError e.message).withChannel judgeChannel))
  | opened {target : Int64} {judge : Reader} (hstate : s.state = .awaitTarget)
      (hread : readTarget s.judge = (.ok target, judge)) :
      Step s ({ s with judge := judge, state := .playing target 0 }.record (startEntry s.settings))
  | unread {target : Int64} {rounds : UInt32} {e : Failure} {r : Reader}
      (hstate : s.state = .playing target rounds)
      (hread : s.contestant.readToken contestantChannel = (.error e, r)) :
      Step s ({ s with contestant := r }.loseContestant rounds e)
  | refused {target : Int64} {rounds : UInt32} {token : Bytes} {r : Reader}
      (hstate : s.state = .playing target rounds)
      (hread : s.contestant.readToken contestantChannel = (.ok token, r))
      (hguess : s.settings.guess? token = none) :
      Step s ({ s with contestant := r }.finish (refusal s.settings rounds token))
  | unanswered {target guess : Int64} {rounds : UInt32} {token : Bytes} {r : Reader} {e : Failure}
      {w : Writer} (hstate : s.state = .playing target rounds)
      (hread : s.contestant.readToken contestantChannel = (.ok token, r))
      (hguess : s.settings.guess? token = some guess)
      (hsend : s.toContestant.sendLine contestantChannel (signalWord target guess) = (.error e, w)) :
      Step s ({ s with contestant := r, toContestant := w }.loseContestant rounds e)
  | answered {target guess : Int64} {rounds : UInt32} {token : Bytes} {r : Reader} {w : Writer}
      (hstate : s.state = .playing target rounds)
      (hread : s.contestant.readToken contestantChannel = (.ok token, r))
      (hguess : s.settings.guess? token = some guess)
      (hsend : s.toContestant.sendLine contestantChannel (signalWord target guess) = (.ok (), w)) :
      Step s (({ s with contestant := r, toContestant := w }.record
        (roundEntry guess (Signal.of guess target) (rounds + 1))).settle target guess (rounds + 1))
  | stayed {ending : Ending} (hstate : s.state = .finished ending) : Step s s

theorem step_of_awaiting {s : Session} (hstate : s.state = .awaitTarget) : s.step = s.begin := by
  rw [step, hstate]

theorem step_of_missed {s : Session} {e : Failure} {judge : Reader}
    (hstate : s.state = .awaitTarget) (hread : readTarget s.judge = (.error e, judge)) :
    s.step = (.error e, { s with judge := judge }.record
      ((Audit.Entry.plain .protocolError e.message).withChannel judgeChannel)) := by
  rw [step_of_awaiting hstate, begin, hread]

theorem step_of_opened {s : Session} {target : Int64} {judge : Reader}
    (hstate : s.state = .awaitTarget) (hread : readTarget s.judge = (.ok target, judge)) :
    s.step = (.ok (), { s with judge := judge, state := .playing target 0 }.record
      (startEntry s.settings)) := by
  rw [step_of_awaiting hstate, begin, hread]

theorem step_of_playing {s : Session} {target : Int64} {rounds : UInt32}
    (hstate : s.state = .playing target rounds) : s.step = (.ok (), s.playRound target rounds) := by
  rw [step, hstate]

theorem step_of_finished {s : Session} {ending : Ending} (hstate : s.state = .finished ending) :
    s.step = (.ok (), s) := by
  rw [step, hstate]

theorem step_spec (s : Session) : Step s s.step.2 := by
  cases hstate : s.state with
  | awaitTarget =>
    rcases hread : readTarget s.judge with ⟨e | target, judge⟩
    · rw [step_of_missed hstate hread]
      exact .missed hstate hread
    · rw [step_of_opened hstate hread]
      exact .opened hstate hread
  | playing target rounds =>
    rw [step_of_playing hstate]
    rcases hread : s.contestant.readToken contestantChannel with ⟨e | token, r⟩
    · rw [playRound_of_unread hread]
      exact .unread hstate hread
    cases hguess : s.settings.guess? token with
    | none =>
      rw [playRound_of_refused hread hguess]
      exact .refused hstate hread hguess
    | some guess =>
      rcases hsend : s.toContestant.sendLine contestantChannel (signalWord target guess)
        with ⟨e | _, w⟩
      · rw [playRound_of_unanswered hread hguess hsend]
        exact .unanswered hstate hread hguess hsend
      · rw [playRound_of_answered hread hguess hsend]
        exact .answered hstate hread hguess hsend
  | finished ending =>
    rw [step_of_finished hstate]
    exact .stayed hstate

/-! ## Runs -/

section Run

variable {s : Session} {target : Int64} {rounds : UInt32}

theorem run_of_finished {ending : Ending} (h : s.state = .finished ending) :
    s.run = (.ok ending, s) := by
  rw [run]
  split
  · rename_i ending' h'
    rw [h] at h'
    cases h'
    rfl
  · rename_i h'
    rw [h] at h'
    cases h'
  · rename_i h'
    rw [h] at h'
    cases h'

theorem run_of_step {s' : Session} (h : ∀ ending, s.state ≠ .finished ending)
    (hstep : s.step = (.ok (), s')) : s.run = s'.run := by
  conv => lhs; rw [run]
  split
  · rename_i ending h'
    exact absurd h' (h ending)
  all_goals
    split
    · rename_i h'
      rw [hstep] at h'
      cases h'
    · rename_i h'
      rw [hstep] at h'
      cases h'
      rfl

theorem run_of_failed {e : Failure} {s' : Session} (h : ∀ ending, s.state ≠ .finished ending)
    (hstep : s.step = (.error e, s')) : s.run = (.error e, s') := by
  rw [run]
  split
  · rename_i ending h'
    exact absurd h' (h ending)
  all_goals
    split
    · rename_i h'
      rw [hstep] at h'
      cases h'
      rfl
    · rename_i h'
      rw [hstep] at h'
      cases h'

theorem remaining_ne_zero (h : ∀ ending, s.state ≠ .finished ending) : s.remaining ≠ 0 := by
  unfold remaining
  split
  · exact Nat.succ_ne_zero _
  · exact Nat.succ_ne_zero _
  · exact absurd ‹_› (h _)

theorem run_of_playing (h : s.state = .playing target rounds) :
    s.run = (s.playRound target rounds).run :=
  run_of_step (by rw [h]; nofun) (step_of_playing h)

/-- A step that does not fail. -/
def Goes (s s' : Session) : Prop := s.step = (.ok (), s')

theorem Goes.step {s s' : Session} (h : Goes s s') : Step s s' := by
  have hspec := step_spec s
  rwa [h] at hspec

/-- Only a step that misses the target fails. -/
theorem missed_of_step_error {s s' : Session} {e : Failure} (h : s.step = (.error e, s')) :
    s.state = .awaitTarget ∧ ∃ judge, readTarget s.judge = (.error e, judge) ∧
      s' = { s with judge := judge }.record
        ((Audit.Entry.plain .protocolError e.message).withChannel judgeChannel) := by
  cases hstate : s.state with
  | awaitTarget =>
    rcases hread : readTarget s.judge with ⟨e' | target, judge⟩
    · cases (step_of_missed hstate hread).symm.trans h
      exact ⟨rfl, judge, rfl, by rw [hstate]⟩
    · cases (step_of_opened hstate hread).symm.trans h
  | playing => cases (step_of_playing hstate).symm.trans h
  | finished => cases (step_of_finished hstate).symm.trans h

/-- A run goes on until the session has ended or a step fails. -/
theorem exists_goes_of_run {s s' : Session} {result : Except Failure Ending}
    (h : s.run = (result, s')) : ∃ s₁, Relation.ReflTransGen Goes s s₁ ∧
      ((∃ ending, result = .ok ending ∧ s₁.state = .finished ending ∧ s' = s₁) ∨
        ∃ e, result = .error e ∧ s₁.step = (.error e, s')) := by
  induction hn : s.remaining using Nat.strong_induction_on generalizing s with
  | _ n ih =>
    subst hn
    by_cases hend : ∃ ending, s.state = .finished ending
    · obtain ⟨ending, hstate⟩ := hend
      rw [run_of_finished hstate] at h
      cases h
      exact ⟨_, .refl, .inl ⟨ending, rfl, hstate, rfl⟩⟩
    have hne : ∀ ending, s.state ≠ .finished ending := fun ending hstate => hend ⟨ending, hstate⟩
    rcases hstep : s.step with ⟨e | _, s₁⟩
    · rw [run_of_failed hne hstep] at h
      cases h
      exact ⟨s, .refl, .inr ⟨e, rfl, hstep⟩⟩
    · rw [run_of_step hne hstep] at h
      obtain ⟨s₂, hgoes, hlast⟩ := ih _ (remaining_step_lt hstep (remaining_ne_zero hne)) h rfl
      exact ⟨s₂, hgoes.head hstep, hlast⟩

/-- What every step keeps still holds where a run has ended. -/
theorem finished_of_run {P : Session → Prop} (hstep : ∀ {s s'}, P s → Step s s' → P s')
    {s s' : Session} {ending : Ending} (h : P s) (hrun : s.run = (.ok ending, s')) :
    s'.state = .finished ending ∧ P s' := by
  obtain ⟨s₁, hgoes, ⟨ending', hending, hstate, rfl⟩ | ⟨e, he, -⟩⟩ := exists_goes_of_run hrun
  · cases hending
    refine ⟨hstate, ?_⟩
    clear hstate hrun
    induction hgoes with
    | refl => exact h
    | tail _ hgoes ih => exact hstep ih hgoes.step
  · cases he

end Run

end Session

end Guessing

end Referee
