import Mathlib.Logic.Relation
import Referee.Proofs.Guessing.Round

/-!
# Safety of the guessing session

`Session.Safe` says what a session has read and written in each of its states, from the target
that the judge has given to a line of which only a beginning could be sent. Every step keeps it
while the round counter does not overflow (`Safe.step`), so that it holds after any number of
steps, whatever fails on the way.
-/

namespace Referee

namespace Guessing

open Session (readTarget)

/-! ## What has been read -/

/-- A try at the target that fails. -/
def MissesTarget (judge judge' : Reader) : Prop := ∃ e, readTarget judge = (.error e, judge')

/-- The target is read from the judge, after tries that fail. -/
def TakesTarget (judge judge' : Reader) (target : Int64) : Prop :=
  ∃ (j : Reader) (token : Bytes), Relation.ReflTransGen MissesTarget judge j ∧
    j.readToken judgeChannel = (.ok token, judge') ∧ Decimal.readInteger token = .value target

/-- The tokens read from the contestant make these guesses. -/
inductive Guesses (settings : GuessingSettings) (r : Reader) : List Int64 → Reader → Prop where
  | nil : Guesses settings r [] r
  | snoc {guesses : List Int64} {guess : Int64} {token : Bytes} {r' r'' : Reader} :
      Guesses settings r guesses r' → r'.readToken contestantChannel = (.ok token, r'') →
      settings.guess? token = some guess → Guesses settings r (guesses ++ [guess]) r''

/-- Nothing, or a beginning of the line that answers the next guess. -/
def BeginsAnswer (settings : GuessingSettings) (target : Int64) (r : Reader) (bs : Bytes) : Prop :=
  bs = [] ∨ ∃ (token : Bytes) (guess : Int64) (r' : Reader),
    r.readToken contestantChannel = (.ok token, r') ∧ settings.guess? token = some guess ∧
      bs <+: signalLine target guess

theorem Guesses.inRange {settings : GuessingSettings} {r r' : Reader} {guesses : List Int64}
    (h : Guesses settings r guesses r') :
    ∀ g ∈ guesses, settings.guessMin ≤ g ∧ g ≤ settings.guessMax := by
  induction h with
  | nil => nofun
  | snoc _ _ hguess ih =>
    intro g hg
    rcases List.mem_append.mp hg with hg | hg
    · exact ih g hg
    · rw [List.mem_singleton.mp hg]
      exact (GuessingSettings.guess?_eq_some_iff.mp hguess).2

namespace Session

/-! ## Rounds that have been made -/

/-- How many rounds the trail holds. -/
def roundsMade (s : Session) : Nat := s.trail.countP (·.kind = .round)

theorem roundsMade_record_of_ne {s : Session} {e : Audit.Entry} (h : e.kind ≠ .round) :
    (s.record e).roundsMade = s.roundsMade := by
  simp [roundsMade, record, h]

theorem roundsMade_record_round (s : Session) (guess : Int64) (signal : Signal) (rounds : UInt32) :
    (s.record (roundEntry guess signal rounds)).roundsMade = s.roundsMade + 1 := by
  simp [roundsMade, record, roundEntry, Audit.Entry.plain, Audit.Entry.withRound]

@[simp] theorem roundsMade_finish (s : Session) (ending : Ending) :
    (s.finish ending).roundsMade = s.roundsMade :=
  roundsMade_record_of_ne nofun

@[simp] theorem roundsMade_loseContestant (s : Session) (rounds : UInt32) (e : Failure) :
    (s.loseContestant rounds e).roundsMade = s.roundsMade := by
  rw [loseContestant, roundsMade_finish]
  exact roundsMade_record_of_ne nofun

@[simp] theorem roundsMade_settle (s : Session) (target guess : Int64) (rounds : UInt32) :
    (s.settle target guess rounds).roundsMade = s.roundsMade := by
  unfold settle
  split
  · exact roundsMade_finish ..
  · split
    · exact roundsMade_finish ..
    · rfl

theorem Step.roundsMade_le {s s' : Session} (h : Step s s') : s.roundsMade ≤ s'.roundsMade := by
  cases h with
  | missed =>
    refine (roundsMade_record_of_ne ?_).ge
    nofun
  | opened =>
    refine (roundsMade_record_of_ne ?_).ge
    nofun
  | unread => exact (roundsMade_loseContestant ..).ge
  | refused => exact (roundsMade_finish ..).ge
  | unanswered => exact (roundsMade_loseContestant ..).ge
  | answered =>
    rw [roundsMade_settle, roundsMade_record_round]
    exact Nat.le_succ _
  | stayed => exact le_rfl

/-! ## The invariant -/

/-- No target has been read, and nothing from or to the contestant. -/
structure Waits (start s : Session) : Prop where
  settings : s.settings = start.settings
  judge : Relation.ReflTransGen MissesTarget start.judge s.judge
  contestant : s.contestant = start.contestant
  toContestant : s.toContestant = start.toContestant
  made : s.roundsMade = 0

/-- The guesses have been read, and answered with their lines. -/
structure Answered (start s : Session) (target : Int64) (guesses : List Int64) : Prop where
  settings : s.settings = start.settings
  opened : TakesTarget start.judge s.judge target
  read : Guesses start.settings start.contestant guesses s.contestant
  written : s.toContestant.written = start.toContestant.written ++ signalLines target guesses
  made : s.roundsMade = guesses.length

/-- The guesses have been answered, and none has hit the target. -/
structure Plays (start s : Session) (target : Int64) (rounds : UInt32) (guesses : List Int64) : Prop
    extends Answered start s target guesses where
  count : guesses.length = rounds.toNat
  limit : rounds ≤ start.settings.roundLimit
  inRange : ∀ g ∈ guesses, start.settings.guessMin ≤ g ∧ g ≤ start.settings.guessMax
  missed : ∀ g ∈ guesses, g ≠ target

/-- What makes a session that ended end well. -/
structure Wins (start s : Session) (ending : Ending) (target : Int64) (guesses : List Int64) :
    Prop where
  some_round : 1 ≤ ending.rounds
  limit : ending.rounds ≤ start.settings.roundLimit
  hit : guesses.getLast? = some target
  inRange : start.settings.guessMin ≤ target ∧ target ≤ start.settings.guessMax
  written : s.toContestant.written =
    start.toContestant.written ++ signalLines target guesses.dropLast ++ Bytes.ofString "OK\n"
  flushed : s.toContestant.Flushed

/-- The guesses have been read and answered, and then at most a part of one more answer was sent. -/
structure Ends (start s : Session) (ending : Ending) (target : Int64) (guesses : List Int64)
    (further : Bytes) : Prop where
  opened : TakesTarget start.judge s.judge target
  read : ∃ r, Guesses start.settings start.contestant guesses r ∧
    BeginsAnswer start.settings target r further
  count : guesses.length = ending.rounds.toNat
  limit : ending.rounds.toNat ≤ start.settings.roundLimit.toNat + 1
  inRange : ∀ g ∈ guesses, start.settings.guessMin ≤ g ∧ g ≤ start.settings.guessMax
  missed : ∀ g ∈ guesses.dropLast, g ≠ target
  written : s.toContestant.written =
    start.toContestant.written ++ signalLines target guesses ++ further
  wins : ending.verdict = .accepted → Wins start s ending target guesses

/-- What a session has read and written since its start. -/
def Safe (start s : Session) : Prop :=
  match s.state with
  | .awaitTarget => Waits start s
  | .playing target rounds => ∃ guesses, Plays start s target rounds guesses
  | .finished ending => ∃ target guesses further, Ends start s ending target guesses further

section Invariant

variable {start s s' : Session} {target guess : Int64} {rounds : UInt32} {guesses : List Int64}
  {ending : Ending}

theorem Safe.waits (h : Safe start s) (hstate : s.state = .awaitTarget) : Waits start s := by
  rwa [Safe, hstate] at h

theorem Safe.of_waits (hstate : s.state = .awaitTarget) (h : Waits start s) : Safe start s := by
  rwa [Safe, hstate]

theorem Safe.plays (h : Safe start s) (hstate : s.state = .playing target rounds) :
    ∃ guesses, Plays start s target rounds guesses := by
  rwa [Safe, hstate] at h

theorem safe_new (settings : GuessingSettings) (judge contestant : Reader) (w : Writer) :
    Safe (Session.new settings judge contestant w) (Session.new settings judge contestant w) :=
  Waits.mk rfl .refl rfl rfl rfl

/-! ## Steps -/

theorem Waits.opened {judge : Reader} (h : Waits start s)
    (hread : readTarget s.judge = (.ok target, judge)) :
    Plays start ({ s with judge := judge, state := .playing target 0 }.record
      (startEntry s.settings)) target 0 [] := by
  obtain ⟨token, hread, htarget⟩ := readTarget_eq_ok_iff.mp hread
  refine ⟨⟨h.settings, ⟨s.judge, token, h.judge, hread, htarget⟩, ?_, ?_, ?_⟩, rfl, ?_, nofun, nofun⟩
  · show Guesses _ _ _ s.contestant
    rw [h.contestant]
    exact .nil
  · show s.toContestant.written = _
    rw [h.toContestant]
    exact (List.append_nil _).symm
  · rw [roundsMade_record_of_ne (by rw [startEntry]; nofun)]
    exact h.made
  · rw [UInt32.le_iff_toNat_le]
    exact Nat.zero_le _

/-- A session that ends in the middle of a round ends after the rounds before. -/
theorem Plays.ends {further : Bytes} (h : Plays start s target rounds guesses)
    (hjudge : s'.judge = s.judge) (hverdict : ending.verdict = .wrongAnswer)
    (hrounds : ending.rounds = rounds)
    (hfurther : BeginsAnswer start.settings target s.contestant further)
    (hwritten : s'.toContestant.written = s.toContestant.written ++ further) :
    Ends start s' ending target guesses further where
  opened := hjudge ▸ h.opened
  read := ⟨s.contestant, h.read, hfurther⟩
  count := hrounds ▸ h.count
  limit := by
    have hlimit := UInt32.le_iff_toNat_le.mp h.limit
    rw [hrounds]
    omega
  inRange := h.inRange
  missed := fun g hg => h.missed g (List.dropLast_subset _ hg)
  written := by rw [hwritten, h.written]
  wins := fun haccepted => by
    rw [hverdict] at haccepted
    cases haccepted

theorem Plays.answered {token : Bytes} {r : Reader} {w : Writer}
    (h : Plays start s target rounds guesses)
    (hread : s.contestant.readToken contestantChannel = (.ok token, r))
    (hguess : s.settings.guess? token = some guess)
    (hsend : s.toContestant.sendLine contestantChannel (signalWord target guess) = (.ok (), w)) :
    Answered start ({ s with contestant := r, toContestant := w }.record
      (roundEntry guess (Signal.of guess target) (rounds + 1))) target (guesses ++ [guess]) ∧
      w.Flushed := by
  obtain ⟨hwritten, hflushed⟩ := written_of_sent hsend
  refine ⟨⟨h.settings, h.opened, h.read.snoc hread (h.settings ▸ hguess), ?_, ?_⟩, hflushed⟩
  · rw [signalLines_snoc, ← List.append_assoc, ← h.written]
    exact hwritten
  · rw [roundsMade_record_round, List.length_append]
    exact congrArg (· + 1) h.made

/-- Too many guesses, a hit or the next round follow an answer. -/
theorem Answered.settle (h : Answered start s target (guesses ++ [guess]))
    (hcount : guesses.length + 1 = rounds.toNat)
    (hlimit : rounds.toNat ≤ start.settings.roundLimit.toNat + 1)
    (hmissed : ∀ g ∈ guesses, g ≠ target) (hflushed : s.toContestant.Flushed) :
    Safe start (s.settle target guess rounds) := by
  have hlength : (guesses ++ [guess]).length = rounds.toNat := by
    rw [List.length_append]
    exact hcount
  have hends : ∀ {ending : Ending}, ending.rounds = rounds →
      (ending.verdict = .accepted →
        Wins start (s.finish ending) ending target (guesses ++ [guess])) →
      Safe start (s.finish ending) := by
    intro ending hrounds hwins
    refine ⟨target, guesses ++ [guess], [], ?_⟩
    refine ⟨h.opened, ⟨_, h.read, .inl rfl⟩, hrounds ▸ hlength, hrounds ▸ hlimit, h.read.inRange,
      ?_, ?_, hwins⟩
    · rw [List.dropLast_concat]
      exact hmissed
    · rw [List.append_nil]
      exact h.written
  unfold Session.settle
  -- a hit in the round after the last one is one guess too many
  by_cases hover : s.settings.roundLimit < rounds
  · rw [if_pos hover]
    exact hends rfl nofun
  rw [if_neg hover]
  rw [h.settings, UInt32.not_lt] at hover
  by_cases hhit : guess = target
  · rw [if_pos hhit]
    subst hhit
    refine hends rfl fun _ => ⟨?_, hover, List.getLast?_concat, ?_, ?_, hflushed⟩
    · rw [UInt32.le_iff_toNat_le]
      show 1 ≤ rounds.toNat
      omega
    · exact h.read.inRange guess (List.mem_append_right _ List.mem_cons_self)
    · rw [List.dropLast_concat, ← signalLine_self guess, List.append_assoc, ← signalLines_snoc]
      exact h.written
  · rw [if_neg hhit]
    refine ⟨guesses ++ [guess], ⟨h.settings, h.opened, h.read, h.written, h.made⟩, hlength, hover,
      h.read.inRange, fun g hg => ?_⟩
    rcases List.mem_append.mp hg with hg | hg
    · exact hmissed g hg
    · rwa [List.mem_singleton.mp hg]

/-- **A step keeps a session safe** unless the round counter overflows. -/
theorem Safe.step (h : Safe start s) (hstep : Step s s') (hcount : s'.roundsMade < UInt32.size) :
    Safe start s' := by
  cases hstep with
  | missed hstate hread =>
    have hw := h.waits hstate
    refine Safe.of_waits hstate ⟨hw.settings, hw.judge.tail ⟨_, hread⟩, hw.contestant,
      hw.toContestant, ?_⟩
    rw [roundsMade_record_of_ne ?_]
    · exact hw.made
    · nofun
  | opened hstate hread => exact ⟨[], (h.waits hstate).opened hread⟩
  | unread hstate hread =>
    obtain ⟨guesses, hp⟩ := h.plays hstate
    exact ⟨_, guesses, [], hp.ends rfl rfl rfl (.inl rfl) (List.append_nil _).symm⟩
  | refused hstate hread hguess =>
    obtain ⟨guesses, hp⟩ := h.plays hstate
    exact ⟨_, guesses, [], hp.ends rfl (refusal_verdict ..) (refusal_rounds ..) (.inl rfl)
      (List.append_nil _).symm⟩
  | unanswered hstate hread hguess hsend =>
    obtain ⟨guesses, hp⟩ := h.plays hstate
    obtain ⟨p, hp', hwritten⟩ := written_of_unsent hsend
    have hbegins : BeginsAnswer start.settings _ s.contestant p :=
      .inr ⟨_, _, _, hread, hp.settings ▸ hguess, hp'⟩
    exact ⟨_, guesses, p, hp.ends rfl rfl rfl hbegins hwritten⟩
  | answered hstate hread hguess hsend =>
    obtain ⟨guesses, hp⟩ := h.plays hstate
    obtain ⟨ha, hflushed⟩ := hp.answered hread hguess hsend
    -- the trail counts this round too, so the counter does not wrap around
    rw [roundsMade_settle, ha.made, List.length_append, hp.count] at hcount
    have hsucc := toNat_succ hcount
    have hlimit := UInt32.le_iff_toNat_le.mp hp.limit
    exact ha.settle (by rw [hsucc, hp.count]) (by omega) hp.missed hflushed
  | stayed => exact h

end Invariant

/-! ## Runs -/

/-- The session after `n` steps, whatever they have come to. -/
def afterSteps (s : Session) : Nat → Session
  | 0 => s
  | n + 1 => (s.afterSteps n).step.2

/-- **Safety.** Whatever the streams of the judge and the contestant deliver and wherever writing
or flushing fails, a session is safe after any number of steps in which the round counter does not
overflow. -/
theorem safe_afterSteps (settings : GuessingSettings) (judge contestant : Reader) (w : Writer)
    (n : Nat)
    (h : ((Session.new settings judge contestant w).afterSteps n).roundsMade < UInt32.size) :
    Safe (Session.new settings judge contestant w)
      ((Session.new settings judge contestant w).afterSteps n) := by
  induction n with
  | zero => exact safe_new settings judge contestant w
  | succ n ih =>
    have hstep := step_spec ((Session.new settings judge contestant w).afterSteps n)
    exact (ih (lt_of_le_of_lt hstep.roundsMade_le h)).step hstep h

/-- The second answer does not fit any more. -/
theorem safe_afterSteps_cut :
    let start := Session.new ⟨2, 1, 100⟩ (.ofTexts ["50"]) (.ofTexts ["25\n7", "5\n50"])
      { Writer.working with room := some 9 }
    ∃ target guesses further,
      Ends start (start.afterSteps 3) (.channelClosed 1) target guesses further := by
  intro start
  have hsafe : Safe start (start.afterSteps 3) := safe_afterSteps _ _ _ _ 3 (by decide)
  have hstate : (start.afterSteps 3).state = .finished (.channelClosed 1) := by decide
  rwa [Safe, hstate] at hsafe

end Session

end Guessing

end Referee
