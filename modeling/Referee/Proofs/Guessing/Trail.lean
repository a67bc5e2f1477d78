import Referee.Proofs.Guessing.Safety

/-!
# The audit trail of a session

The trail of a session that plays is its opening and one entry for each answered guess
(`Logged`); how it ends decides what comes behind them (`Closes`). `Recorded` says this of every
state, every step that goes on keeps it, and `run_trail` reads the trail of a whole run off it.
-/

namespace Referee.Guessing

open Session (roundEntry startEntry)

/-! ## What the entries tell of -/

/-- The guesses have been read and their lines have been sent, one after the other. -/
inductive Rounds (settings : GuessingSettings) (target : Int64) (r : Reader) (w : Writer) :
    List Int64 → Reader → Writer → Prop where
  | start : Rounds settings target r w [] r w
  | round {guesses : List Int64} {guess : Int64} {token : Bytes} {r' r'' : Reader}
      {w' w'' : Writer} (h : Rounds settings target r w guesses r' w')
      (hread : r'.readToken contestantChannel = (.ok token, r''))
      (hguess : settings.guess? token = some guess)
      (hsend : w'.sendLine contestantChannel (signalWord target guess) = (.ok (), w'')) :
      Rounds settings target r w (guesses ++ [guess]) r'' w''

/-- How a session ends after its rounds: with which failure, if the contestant is lost, with which
report, and what is left of the streams. -/
inductive Closes (settings : GuessingSettings) (target : Int64) (guesses : List Int64) (r : Reader)
    (w : Writer) : Option Failure → Ending → Reader → Writer → Prop where
  | unread {rounds : UInt32} {e : Failure} {r' : Reader} (hcount : rounds.toNat = guesses.length)
      (hread : r.readToken contestantChannel = (.error e, r')) :
      Closes settings target guesses r w (some e) (.channelClosed rounds) r' w
  | unanswered {rounds : UInt32} {token : Bytes} {guess : Int64} {e : Failure} {r' : Reader}
      {w' : Writer} (hcount : rounds.toNat = guesses.length)
      (hread : r.readToken contestantChannel = (.ok token, r'))
      (hguess : settings.guess? token = some guess)
      (hsend : w.sendLine contestantChannel (signalWord target guess) = (.error e, w')) :
      Closes settings target guesses r w (some e) (.channelClosed rounds) r' w'
  | refused {rounds : UInt32} {token : Bytes} {r' : Reader} (hcount : rounds.toNat = guesses.length)
      (hread : r.readToken contestantChannel = (.ok token, r'))
      (hguess : settings.guess? token = none) :
      Closes settings target guesses r w none (refusal settings rounds token) r' w
  | tooMany {rounds : UInt32} (hcount : rounds.toNat = guesses.length)
      (hlimit : settings.roundLimit < rounds) :
      Closes settings target guesses r w none (.tooManyGuesses rounds) r w
  | hit {rounds : UInt32} (hcount : rounds.toNat = guesses.length)
      (hlimit : rounds ≤ settings.roundLimit) (hlast : guesses.getLast? = some target) :
      Closes settings target guesses r w none (.accepted rounds) r w

/-- One entry for each round, numbered from one. -/
def roundEntries (target : Int64) (guesses : List Int64) : List Audit.Entry :=
  guesses.mapIdx fun i guess => ⟨.round, .info,
    "guess " ++ guess.toInt.repr ++ " -> " ++ signalWord target guess, none,
    some (UInt32.ofNat (i + 1)), none⟩

/-- The entry of a lost contestant. -/
def lostEntry (e : Failure) : Audit.Entry :=
  ⟨.peerClosed, .warning, e.message, some "contestant", none, none⟩

/-- The entry of a report. -/
def endEntry (ending : Ending) : Audit.Entry :=
  ⟨.sessionEnd, .info, ending.message, none, some ending.rounds, some ending.verdict⟩

section Entries

variable {settings : GuessingSettings} {target guess : Int64} {guesses : List Int64}
  {r r' : Reader} {w w' : Writer} {rounds : UInt32}

theorem Rounds.written (h : Rounds settings target r w guesses r' w') :
    w'.written = w.written ++ signalLines target guesses := by
  induction h with
  | start => exact (List.append_nil _).symm
  | round _ _ _ hsend ih =>
    rw [(written_of_sent hsend).1, ih, signalLines_snoc, List.append_assoc]

theorem Closes.count {lost : Option Failure} {ending : Ending}
    (h : Closes settings target guesses r w lost ending r' w') :
    ending.rounds.toNat = guesses.length := by
  cases h with
  | unread hcount | unanswered hcount | tooMany hcount | hit hcount => exact hcount
  | refused hcount =>
    rw [refusal_rounds]
    exact hcount

theorem roundEntries_snoc (hcount : rounds.toNat = (guesses ++ [guess]).length) :
    roundEntries target (guesses ++ [guess]) =
      roundEntries target guesses ++ [roundEntry guess (Signal.of guess target) rounds] := by
  have hrounds : UInt32.ofNat (guesses.length + 1) = rounds := by
    rw [← UInt32.ofNat_toNat (x := rounds), hcount, List.length_append, List.length_singleton]
  simp only [roundEntries, List.mapIdx_append, List.mapIdx_cons, List.mapIdx_nil, Nat.zero_add, hrounds,
    ← Signal.text_of]
  rfl

end Entries

namespace Session

/-! ## The trail in each state -/

/-- The guesses have been answered and recorded. -/
structure Logged (start s : Session) (target : Int64) (rounds : UInt32) (guesses : List Int64) :
    Prop where
  settings : s.settings = start.settings
  played : Rounds start.settings target start.contestant start.toContestant guesses s.contestant
    s.toContestant
  count : rounds.toNat = guesses.length
  made : s.roundsMade = guesses.length
  trail : s.trail = startEntry start.settings :: roundEntries target guesses

/-- The session has ended, and its end is recorded behind its rounds. -/
structure Closed (start s : Session) (target : Int64) (guesses : List Int64) (lost : Option Failure)
    (ending : Ending) (r : Reader) (w : Writer) : Prop where
  played : Rounds start.settings target start.contestant start.toContestant guesses r w
  closes : Closes start.settings target guesses r w lost ending s.contestant s.toContestant
  trail : s.trail = startEntry start.settings :: roundEntries target guesses ++
    (lost.map lostEntry).toList ++ [endEntry ending]

/-- What a session has recorded since its start. -/
def Recorded (start s : Session) : Prop :=
  match s.state with
  | .awaitTarget => s = start
  | .playing target rounds => ∃ guesses, Logged start s target rounds guesses
  | .finished ending => ∃ target guesses lost r w, Closed start s target guesses lost ending r w

section Recorded

variable {start s s' : Session} {target guess : Int64} {rounds : UInt32} {guesses : List Int64}

theorem Recorded.logged (h : Recorded start s) (hstate : s.state = .playing target rounds) :
    ∃ guesses, Logged start s target rounds guesses := by
  rwa [Recorded, hstate] at h

/-- An answered guess is recorded with the signal that was sent for it. -/
theorem Logged.answered {token : Bytes} {r : Reader} {w : Writer}
    (h : Logged start s target rounds guesses) (hcount : guesses.length + 1 < UInt32.size)
    (hread : s.contestant.readToken contestantChannel = (.ok token, r))
    (hguess : s.settings.guess? token = some guess)
    (hsend : s.toContestant.sendLine contestantChannel (signalWord target guess) = (.ok (), w)) :
    Logged start ({ s with contestant := r, toContestant := w }.record
      (roundEntry guess (Signal.of guess target) (rounds + 1))) target (rounds + 1)
      (guesses ++ [guess]) := by
  have hsucc : (rounds + 1).toNat = (guesses ++ [guess]).length := by
    rw [toNat_succ (by rw [h.count]; exact hcount), h.count, List.length_append, List.length_singleton]
  refine ⟨h.settings, h.played.round hread (h.settings ▸ hguess) hsend, hsucc, ?_, ?_⟩
  · rw [roundsMade_record_round, List.length_append]
    exact congrArg (· + 1) h.made
  · rw [roundEntries_snoc hsucc, ← List.cons_append, ← h.trail]
    rfl

/-- The round limit and a hit end the session behind its last entry. -/
theorem Logged.settle (h : Logged start s target rounds (guesses ++ [guess])) :
    Recorded start (s.settle target guess rounds) := by
  have htrail : ∀ ending, (s.finish ending).trail = startEntry start.settings ::
      roundEntries target (guesses ++ [guess]) ++ [] ++ [endEntry ending] := by
    intro ending
    rw [List.append_nil, ← h.trail]
    rfl
  unfold Session.settle
  by_cases hover : s.settings.roundLimit < rounds
  · rw [if_pos hover]
    rw [h.settings] at hover
    exact ⟨target, _, none, _, _, h.played, .tooMany h.count hover, htrail _⟩
  rw [if_neg hover]
  rw [h.settings, UInt32.not_lt] at hover
  by_cases hhit : guess = target
  · rw [if_pos hhit]
    subst hhit
    exact ⟨guess, _, none, _, _, h.played, .hit h.count hover List.getLast?_concat, htrail _⟩
  · rw [if_neg hhit]
    exact ⟨_, h.settings, h.played, h.count, h.made, h.trail⟩

/-- **A step that goes on keeps the trail** unless the round counter overflows. -/
theorem Recorded.goes (h : Recorded start s) (hgoes : Goes s s')
    (hcount : s'.roundsMade < UInt32.size) (hstart : start.trail = []) : Recorded start s' := by
  cases hgoes.step with
  | missed hstate hread => cases (step_of_missed hstate hread).symm.trans hgoes
  | opened hstate hread =>
    obtain rfl : s = start := by rwa [Recorded, hstate] at h
    refine ⟨[], rfl, .start, rfl, ?_, ?_⟩
    · rw [roundsMade_record_of_ne (by rw [startEntry]; exact Audit.Kind.noConfusion), roundsMade, hstart]
      rfl
    · show s.trail ++ [startEntry s.settings] = _
      rw [hstart]
      rfl
  | unread hstate hread =>
    obtain ⟨guesses, hl⟩ := h.logged hstate
    refine ⟨_, guesses, some _, _, _, hl.played, .unread hl.count hread, ?_⟩
    rw [← hl.trail]
    rfl
  | refused hstate hread hguess =>
    obtain ⟨guesses, hl⟩ := h.logged hstate
    rw [hl.settings] at hguess ⊢
    refine ⟨_, guesses, none, _, _, hl.played, .refused hl.count hread hguess, ?_⟩
    rw [← hl.trail, Option.map_none, Option.toList_none, List.append_nil]
    rfl
  | unanswered hstate hread hguess hsend =>
    obtain ⟨guesses, hl⟩ := h.logged hstate
    rw [hl.settings] at hguess
    refine ⟨_, guesses, some _, _, _, hl.played, .unanswered hl.count hread hguess hsend, ?_⟩
    rw [← hl.trail]
    rfl
  | answered hstate hread hguess hsend =>
    obtain ⟨guesses, hl⟩ := h.logged hstate
    rw [roundsMade_settle, roundsMade_record_round] at hcount
    refine (hl.answered ?_ hread hguess hsend).settle
    rw [← hl.made]
    exact hcount
  | stayed => exact h

theorem recorded_of_goes (hstate : start.state = .awaitTarget) (hstart : start.trail = [])
    (h : Relation.ReflTransGen Goes start s) (hcount : s.roundsMade < UInt32.size) :
    Recorded start s := by
  induction h with
  | refl => rw [Recorded, hstate]
  | tail _ hgoes ih =>
    exact (ih (lt_of_le_of_lt hgoes.step.roundsMade_le hcount)).goes hgoes hcount hstart

end Recorded

/-! ## Runs -/

/-- **The trail is faithful.** Whatever the streams deliver and wherever writing fails, a run in
which the round counter does not overflow either fails at the target and records just that, or
records its opening, its rounds with their numbers, guesses and signals, the loss of the contestant
if it ends with one, and its report. -/
theorem run_trail {settings : GuessingSettings} {judge contestant : Reader} {w : Writer}
    {result : Except Failure Ending} {s' : Session}
    (h : (Session.new settings judge contestant w).run = (result, s'))
    (hcount : s'.roundsMade < UInt32.size) :
    (∃ e, result = .error e ∧
      s'.trail = [⟨.protocolError, .error, e.message, some "judge", none, none⟩]) ∨
    ∃ ending target guesses lost r w', result = .ok ending ∧
      Rounds settings target contestant w guesses r w' ∧
      Closes settings target guesses r w' lost ending s'.contestant s'.toContestant ∧
      w'.written = w.written ++ signalLines target guesses ∧
      guesses.length = ending.rounds.toNat ∧
      s'.trail =
        ⟨.sessionStart, .info, "round limit " ++ settings.roundLimit.toNat.repr, none, none, none⟩ ::
          guesses.mapIdx (fun i guess => ⟨.round, .info,
            "guess " ++ guess.toInt.repr ++ " -> " ++ signalWord target guess, none,
            some (UInt32.ofNat (i + 1)), none⟩) ++
          (lost.map fun e => ⟨.peerClosed, .warning, e.message, some "contestant", none, none⟩).toList ++
          [⟨.sessionEnd, .info, ending.message, none, some ending.rounds, some ending.verdict⟩] := by
  obtain ⟨s₁, hgoes, ⟨ending, rfl, hend, rfl⟩ | ⟨e, rfl, hfail⟩⟩ := exists_goes_of_run h
  · have hrec := recorded_of_goes rfl rfl hgoes hcount
    rw [Recorded, hend] at hrec
    obtain ⟨target, guesses, lost, r, w', hclosed⟩ := hrec
    exact .inr ⟨ending, target, guesses, lost, r, w', rfl, hclosed.played, hclosed.closes,
      hclosed.played.written, hclosed.closes.count.symm, hclosed.trail⟩
  · have hspec := step_spec s₁
    rw [hfail] at hspec
    have hrec := recorded_of_goes rfl rfl hgoes (lt_of_le_of_lt hspec.roundsMade_le hcount)
    obtain ⟨hawait, judge', -, rfl⟩ := missed_of_step_error hfail
    rw [Recorded, hawait] at hrec
    subst hrec
    exact .inl ⟨e, rfl, rfl⟩

/-- The second answer breaks off in the middle of its line. -/
theorem run_trail_cut :
    let start := Session.new ⟨2, 1, 100⟩ (.ofTexts ["50"]) (.ofTexts ["25\n7", "5\n50"])
      { Writer.working with room := some 9 }
    start.run.1 = .ok (.channelClosed 1) ∧ start.run.2.roundsMade < UInt32.size ∧
      ∃ target guesses lost r w', Closes ⟨2, 1, 100⟩ target guesses r w' lost (.channelClosed 1)
          start.run.2.contestant start.run.2.toContestant ∧
        start.run.2.trail = startEntry ⟨2, 1, 100⟩ :: roundEntries target guesses ++
          (lost.map lostEntry).toList ++ [endEntry (.channelClosed 1)] := by
  intro start
  have hresult : start.run.1 = .ok (.channelClosed 1) := by decide +kernel
  have hcount : start.run.2.roundsMade < UInt32.size := by decide +kernel
  rcases run_trail (rfl : start.run = (start.run.1, start.run.2)) hcount with
    ⟨e, herror, -⟩ | ⟨ending, target, guesses, lost, r, w', hok, -, hcloses, -, -, htrail⟩
  · cases hresult.symm.trans herror
  · cases hresult.symm.trans hok
    exact ⟨hresult, hcount, target, guesses, lost, r, w', hcloses, htrail⟩

end Session

end Referee.Guessing
