import Referee.Proofs.Guessing.Bisection
import Referee.Proofs.Guessing.Blame
import Referee.Proofs.Validation

/-!
# The round counter

The counter has 32 bits and is compared with the round limit once it has been increased. Under any
limit but the greatest it stays below its last value while the game is on, so it counts the rounds
and the lines sent (`CountsLines.step`), and the session ends after the limit and one more round
(`finished_or_le_roundsMade`). It never exceeds the greatest limit, though, which validation lets
through: a contestant that misses often enough takes it around to zero
(`Ready.afterSteps_misses`). `countsLines_iff` says both.
-/

namespace Referee.Guessing.Session

/-! ## What the counter counts -/

/-- As many rounds have been made as are counted, each has sent its line, and then `further` has
been sent. -/
structure Sent (start s : Session) (target : Int64) (rounds : UInt32) (further : Bytes) : Prop where
  made : s.roundsMade = rounds.toNat
  written : ∃ guesses : List Int64, guesses.length = rounds.toNat ∧
    s.toContestant.written =
      start.toContestant.written ++ signalLines target guesses ++ further

/-- The counter counts the rounds and the lines sent. It has room for one more while the game is
on, and ends at most one above the limit. A session that has ended can have sent a beginning of one
more line, if the contestant was lost over it. -/
def CountsLines (start s : Session) : Prop :=
  match s.state with
  | .awaitTarget => s.roundsMade = 0 ∧ s.toContestant = start.toContestant
  | .playing target rounds =>
    Sent start s target rounds [] ∧ rounds ≤ start.settings.roundLimit ∧
      rounds.toNat + 1 < UInt32.size
  | .finished ending =>
    ∃ target further, Sent start s target ending.rounds further ∧
      ending.rounds.toNat ≤ start.settings.roundLimit.toNat + 1 ∧
      (further = [] ∨ ending = .channelClosed ending.rounds ∧
        ∃ guess, further <+: signalLine target guess)

section CountsLines

variable {start s s' : Session} {target guess : Int64} {rounds limit : UInt32} {ending : Ending}
  {further : Bytes}

/-- Within a limit that is not the greatest there is room for one more round. -/
theorem succ_lt_size_of_le (hle : rounds ≤ limit) (hne : limit ≠ 4294967295) :
    rounds.toNat + 1 < UInt32.size := by
  rw [UInt32.le_iff_toNat_le] at hle
  have hlimit : limit.toNat ≠ 4294967295 := fun h => hne (UInt32.toNat_inj.mp h)
  have hlt : limit.toNat < 4294967296 := limit.toNat_lt
  show rounds.toNat + 1 < 4294967296
  omega

theorem CountsLines.awaiting (h : CountsLines start s) (hstate : s.state = .awaitTarget) :
    s.roundsMade = 0 ∧ s.toContestant = start.toContestant := by
  rwa [CountsLines, hstate] at h

theorem CountsLines.of_awaiting (hstate : s.state = .awaitTarget)
    (h : s.roundsMade = 0 ∧ s.toContestant = start.toContestant) : CountsLines start s := by
  rwa [CountsLines, hstate]

theorem CountsLines.playing (h : CountsLines start s) (hstate : s.state = .playing target rounds) :
    Sent start s target rounds [] ∧ rounds ≤ start.settings.roundLimit ∧
      rounds.toNat + 1 < UInt32.size := by
  rwa [CountsLines, hstate] at h

theorem countsLines_new (settings : GuessingSettings) (judge contestant : Reader) (w : Writer) :
    CountsLines (Session.new settings judge contestant w)
      (Session.new settings judge contestant w) :=
  ⟨rfl, rfl⟩

theorem CountsLines.of_finished (hstate : s.state = .finished ending)
    (hrounds : ending.rounds = rounds) (h : Sent start s target rounds further)
    (hle : rounds.toNat ≤ start.settings.roundLimit.toNat + 1)
    (hfurther : further = [] ∨ ending = .channelClosed rounds ∧
      ∃ guess, further <+: signalLine target guess) : CountsLines start s := by
  subst hrounds
  rw [CountsLines, hstate]
  exact ⟨target, further, h, hle, hfurther⟩

/-- The round after the last one that the limit allows is the end. -/
theorem Sent.countsLines_settle (h : Sent start s target rounds [])
    (hsettings : s.settings = start.settings)
    (hle : rounds.toNat ≤ start.settings.roundLimit.toNat + 1)
    (hlimit : start.settings.roundLimit ≠ 4294967295) :
    CountsLines start (s.settle target guess rounds) := by
  unfold Session.settle
  by_cases hover : s.settings.roundLimit < rounds
  · rw [if_pos hover]
    exact .of_finished rfl rfl ⟨(roundsMade_finish ..).trans h.made, h.written⟩ hle (.inl rfl)
  rw [if_neg hover]
  rw [hsettings, UInt32.not_lt] at hover
  by_cases hhit : guess = target
  · rw [if_pos hhit]
    exact .of_finished rfl rfl ⟨(roundsMade_finish ..).trans h.made, h.written⟩ hle (.inl rfl)
  · rw [if_neg hhit]
    exact ⟨⟨h.made, h.written⟩, hover, succ_lt_size_of_le hover hlimit⟩

/-- An answer is one more round and one more line. -/
theorem Sent.answered {r : Reader} {w : Writer} (h : Sent start s target rounds [])
    (hroom : rounds.toNat + 1 < UInt32.size)
    (hsend : s.toContestant.sendLine contestantChannel (signalWord target guess) = (.ok (), w)) :
    Sent start ({ s with contestant := r, toContestant := w }.record
      (roundEntry guess (Signal.of guess target) (rounds + 1))) target (rounds + 1) [] := by
  obtain ⟨hmade, guesses, hcount, hlines⟩ := h
  have hsucc := toNat_succ hroom
  refine ⟨?_, guesses ++ [guess], ?_, ?_⟩
  · rw [roundsMade_record_round, hsucc]
    exact congrArg (· + 1) hmade
  · rw [List.length_append, hcount, hsucc, List.length_singleton]
  · rw [List.append_nil] at hlines
    rw [signalLines_snoc, ← List.append_assoc, List.append_nil, ← hlines]
    exact (written_of_sent hsend).1

/-- **A step counts its round and its line**, unless the limit is the greatest. -/
theorem CountsLines.step (h : CountsLines start s) (hsettings : s.settings = start.settings)
    (hlimit : start.settings.roundLimit ≠ 4294967295) (hstep : Step s s') :
    CountsLines start s' := by
  have hle : ∀ {rounds : UInt32}, rounds ≤ start.settings.roundLimit →
      rounds.toNat ≤ start.settings.roundLimit.toNat + 1 := fun hle =>
    (UInt32.le_iff_toNat_le.mp hle).trans (Nat.le_succ _)
  cases hstep with
  | missed hstate hread =>
    obtain ⟨hmade, hwriter⟩ := h.awaiting hstate
    refine CountsLines.of_awaiting hstate ⟨?_, hwriter⟩
    rw [roundsMade_record_of_ne (fun h => by cases h)]
    exact hmade
  | opened hstate hread =>
    obtain ⟨hmade, hwriter⟩ := h.awaiting hstate
    refine ⟨⟨?_, [], rfl, ?_⟩, UInt32.le_iff_toNat_le.mpr (Nat.zero_le _), by decide⟩
    · rw [roundsMade_record_of_ne (fun h => by cases h)]
      exact hmade
    · show s.toContestant.written = _
      rw [hwriter]
      simp [signalLines]
  | unread hstate hread =>
    obtain ⟨hsent, hunder, -⟩ := h.playing hstate
    exact .of_finished rfl rfl ⟨(roundsMade_loseContestant ..).trans hsent.made, hsent.written⟩
      (hle hunder) (.inl rfl)
  | refused hstate hread hguess =>
    obtain ⟨hsent, hunder, -⟩ := h.playing hstate
    exact .of_finished rfl (refusal_rounds ..)
      ⟨(roundsMade_finish ..).trans hsent.made, hsent.written⟩ (hle hunder) (.inl rfl)
  | unanswered hstate hread hguess hsend =>
    obtain ⟨⟨hmade, guesses, hcount, hlines⟩, hunder, -⟩ := h.playing hstate
    obtain ⟨p, hp, hwritten⟩ := written_of_unsent hsend
    refine .of_finished rfl rfl ⟨(roundsMade_loseContestant ..).trans hmade, guesses, hcount, ?_⟩
      (hle hunder) (.inr ⟨rfl, _, hp⟩)
    rw [List.append_nil] at hlines
    rw [← hlines]
    exact hwritten
  | answered hstate hread hguess hsend =>
    obtain ⟨hsent, hunder, hroom⟩ := h.playing hstate
    refine (hsent.answered hroom hsend).countsLines_settle hsettings ?_ hlimit
    rw [UInt32.le_iff_toNat_le] at hunder
    rw [toNat_succ hroom]
    exact Nat.succ_le_succ hunder
  | stayed => exact h

end CountsLines

/-! ## Runs below the greatest limit -/

section Run

variable {start s s' : Session} {target guess : Int64} {rounds : UInt32} {ending : Ending}

theorem Step.settings_eq (h : Step s s') : s'.settings = s.settings := by
  cases h with
  | answered =>
    unfold settle
    split
    · rfl
    · split <;> rfl
  | _ => rfl

theorem settings_afterSteps (s : Session) (n : Nat) : (s.afterSteps n).settings = s.settings := by
  induction n with
  | zero => rfl
  | succ n ih => exact (step_spec _).settings_eq.trans ih

theorem countsLines_afterSteps (settings : GuessingSettings) (judge contestant : Reader) (w : Writer)
    (hlimit : settings.roundLimit ≠ 4294967295) (n : Nat) :
    CountsLines (Session.new settings judge contestant w)
      ((Session.new settings judge contestant w).afterSteps n) := by
  induction n with
  | zero => exact countsLines_new settings judge contestant w
  | succ n ih => exact ih.step (settings_afterSteps _ n) hlimit (step_spec _)

/-- A round that does not end the session is counted in the trail. -/
theorem Step.finished_or_succ (h : Step s s') (hstate : s.state = .playing target rounds) :
    (∃ ending, s'.state = .finished ending) ∨ s'.roundsMade = s.roundsMade + 1 := by
  cases h with
  | missed hstate' => cases hstate.symm.trans hstate'
  | opened hstate' => cases hstate.symm.trans hstate'
  | unread => exact .inl ⟨_, rfl⟩
  | refused => exact .inl ⟨_, rfl⟩
  | unanswered => exact .inl ⟨_, rfl⟩
  | answered =>
    right
    rw [roundsMade_settle, roundsMade_record_round]
    rfl
  | stayed hstate' => exact .inl ⟨_, hstate'⟩

/-- Once the target has been read, each step ends the session or makes a round. -/
theorem finished_or_le_roundsMade (h : s.state ≠ .awaitTarget) (k : Nat) :
    (∃ ending, (s.afterSteps k).state = .finished ending) ∨ k ≤ (s.afterSteps k).roundsMade := by
  induction k with
  | zero => exact .inr (Nat.zero_le _)
  | succ k ih =>
    have hstep := step_spec (s.afterSteps k)
    cases hstate : (s.afterSteps k).state with
    | awaitTarget => exact absurd hstate (state_afterSteps_ne h k)
    | playing target rounds =>
      have hle : k ≤ (s.afterSteps k).roundsMade := ih.elim
        (fun ⟨_, hfinished⟩ => by cases hstate.symm.trans hfinished) id
      refine (hstep.finished_or_succ hstate).imp id fun hsucc => ?_
      rw [afterSteps, hsucc]
      exact Nat.succ_le_succ hle
    | finished ending =>
      left
      rw [afterSteps, step_of_finished hstate]
      exact ⟨ending, hstate⟩

theorem afterSteps_add (s : Session) (m n : Nat) :
    s.afterSteps (m + n) = (s.afterSteps m).afterSteps n := by
  induction n with
  | zero => rfl
  | succ n ih =>
    rw [← Nat.add_assoc, afterSteps, ih, afterSteps]

end Run

/-! ## Misses under the greatest limit -/

section Misses

variable {s : Session} {target guess : Int64} {rounds : UInt32} {g : Bytes} {gs : List Bytes}
  {guesses : List Int64}

theorem not_greatest_lt (rounds : UInt32) : ¬ (4294967295 : UInt32) < rounds := by
  have hlt : rounds.toNat < 4294967296 := rounds.toNat_lt
  rw [UInt32.lt_iff_toNat_lt]
  show ¬ 4294967295 < rounds.toNat
  omega

/-- The guesses have been made, and the game goes on. -/
structure Missed (s : Session) (target : Int64) (rounds : UInt32) (guesses : List Int64)
    (gs : List Bytes) (s' : Session) : Prop where
  ready : s'.Ready target (rounds + UInt32.ofNat guesses.length) gs
  settings : s'.settings = s.settings
  made : s'.roundsMade = s.roundsMade + guesses.length
  written : s'.toContestant.written = s.toContestant.written ++ signalLines target guesses

theorem Ready.missed_nil (h : s.Ready target rounds gs) : Missed s target rounds [] gs s := by
  refine ⟨?_, rfl, rfl, (List.append_nil _).symm⟩
  show s.Ready target (rounds + 0) gs
  rwa [UInt32.add_zero]

/-- **No count ends the game under the greatest limit.** -/
theorem Ready.missed_step (h : s.Ready target rounds (g :: gs))
    (hlimit : s.settings.roundLimit = 4294967295) (hg : s.settings.guess? g = some guess)
    (hne : guess ≠ target) : Missed s target rounds [guess] gs s.step.2 := by
  obtain ⟨s', hplay, hsettings, hsteady, htokens, hreliable, -, hwritten⟩ := h.playRound_answered hg
  have hstep : s.step.2 = { s' with state := .playing target (rounds + 1) } := by
    rw [step_of_playing h.state, hplay, settle, hsettings, hlimit, if_neg (not_greatest_lt _),
      if_neg hne]
  have hmade : s.step.2.roundsMade = s.roundsMade + 1 := by
    refine ((step_spec s).finished_or_succ h.state).resolve_left ?_
    rw [hstep]
    rintro ⟨ending, hfinished⟩
    cases hfinished
  refine ⟨?_, ?_, hmade, ?_⟩
  · rw [hstep]
    exact ⟨rfl, hsteady, htokens, fun g' hg' => h.short g' (List.mem_cons_of_mem _ hg'), hreliable⟩
  · rw [hstep]
    exact hsettings
  · rw [hstep, signalLines_singleton]
    exact hwritten

theorem Missed.trans {s' s'' : Session} {gs' : List Bytes} {guesses' : List Int64}
    (h : Missed s target rounds guesses gs s')
    (h' : Missed s' target (rounds + UInt32.ofNat guesses.length) guesses' gs' s'') :
    Missed s target rounds (guesses ++ guesses') gs' s'' := by
  refine ⟨?_, h'.settings.trans h.settings, ?_, ?_⟩
  · rw [List.length_append, UInt32.ofNat_add, ← UInt32.add_assoc]
    exact h'.ready
  · rw [h'.made, h.made, List.length_append, Nat.add_assoc]
  · rw [h'.written, h.written, signalLines_append, List.append_assoc]

/-- Misses go on for as long as the contestant sends them; the counter counts them modulo its
size. -/
theorem Ready.afterSteps_misses (hlimit : s.settings.roundLimit = 4294967295)
    (hguesses : ∀ guess ∈ guesses,
      s.settings.guessMin ≤ guess ∧ guess ≤ s.settings.guessMax ∧ guess ≠ target)
    (h : s.Ready target rounds
      ((guesses.map fun guess => Bytes.ofString guess.toInt.repr) ++ gs)) :
    Missed s target rounds guesses gs (s.afterSteps guesses.length) := by
  induction guesses generalizing s rounds with
  | nil => exact h.missed_nil
  | cons guess guesses ih =>
    obtain ⟨⟨hmin, hmax, hne⟩, hrest⟩ := List.forall_mem_cons.mp hguesses
    have hfirst := Ready.missed_step h hlimit (Game.guess?_repr hmin hmax) hne
    rw [List.length_cons, afterSteps_succ]
    refine hfirst.trans (ih ?_ ?_ hfirst.ready)
    · rw [hfirst.settings, hlimit]
    · rw [hfirst.settings]
      exact hrest

/-- A hit is one after any number of misses. -/
theorem Ready.hit_step (h : s.Ready target rounds (g :: gs))
    (hlimit : s.settings.roundLimit = 4294967295) (hg : s.settings.guess? g = some target) :
    s.step.2.state = .finished (.accepted (rounds + 1)) := by
  obtain ⟨s', hplay, hsettings, -⟩ := h.playRound_answered hg
  rw [step_of_playing h.state, hplay, settle, hsettings, hlimit, if_neg (not_greatest_lt _),
    if_pos rfl]
  rfl

/-- The contestant has missed with each of its first guesses, and `more` of them are to come. -/
theorem missed_new {settings : GuessingSettings} (hlimit : settings.roundLimit = 4294967295)
    (hguesses : ∀ guess ∈ guesses,
      settings.guessMin ≤ guess ∧ guess ≤ settings.guessMax ∧ guess ≠ target) (more : List Int64) :
    let s := (Session.new settings (.buffered bufferSize (guessLine target))
      (.buffered bufferSize ((guesses ++ more).flatMap guessLine)) .working).afterSteps
        (guesses.length + 1)
    s.Ready target (UInt32.ofNat guesses.length)
        (more.map fun guess => Bytes.ofString guess.toInt.repr) ∧
      s.settings = settings ∧ s.roundsMade = guesses.length ∧
      s.toContestant.written = signalLines target guesses := by
  intro s
  have hbytes : ∀ bs, (Reader.buffered bufferSize bs).bytes = bs :=
    Reader.bytes_buffered (by decide)
  have htarget : tokens (Reader.buffered bufferSize (guessLine target)).bytes =
      [Bytes.ofString target.toInt.repr] := by
    rw [hbytes, ← List.flatMap_singleton guessLine, tokens_guessLines]
    rfl
  have hshort : ∀ n : Int64, (Bytes.ofString n.toInt.repr).length ≤ maxTokenLength := fun n =>
    (Decimal.length_repr_le n).trans (by decide)
  have htokens := tokens_guessLines (guesses ++ more)
  rw [← hbytes ((guesses ++ more).flatMap guessLine)] at htokens
  obtain ⟨s₁, hopen, hready, hsettings, hwriter, htrail⟩ :=
    ready_opened settings (Reader.steady_buffered _ _) htarget (hshort target)
      (Decimal.readInteger_repr target) (Reader.steady_buffered _ _)
      (by
        rw [htokens]
        exact List.forall_mem_map.mpr fun n _ => hshort n)
      (w := .working) ⟨rfl, rfl⟩
  rw [htokens, List.map_append] at hready
  have hmissed := Ready.afterSteps_misses (by rw [hsettings, hlimit]) (by rwa [hsettings]) hready
  have hs : s = s₁.afterSteps guesses.length := by
    show afterSteps _ (guesses.length + 1) = _
    rw [afterSteps_succ, hopen]
  rw [hs]
  refine ⟨?_, hmissed.settings.trans hsettings, ?_, ?_⟩
  · rw [← UInt32.zero_add (UInt32.ofNat _)]
    exact hmissed.ready
  · rw [hmissed.made, roundsMade, htrail]
    exact Nat.zero_add _
  · rw [hmissed.written, hwriter]
    rfl

end Misses

/-! ## The round counter -/

/-- **The counter overflows under the greatest limit only.** Under any other limit that is valid,
the counter of each session has room for one more round as long as the game is on and counts the
lines sent, and the session ends after the limit and one more round, whatever the streams deliver
and wherever writing fails. -/
theorem countsLines_iff {c : Settings} (h : c.validate = .ok c) :
    (∀ (judge contestant : Reader) (w : Writer),
      let start := Session.new c.guessing judge contestant w
      (∀ n, CountsLines start (start.afterSteps n)) ∧
      ∀ n, (start.afterSteps n).state ≠ .awaitTarget → ∃ ending,
        ((start.afterSteps n).afterSteps (c.guessing.roundLimit.toNat + 1)).state =
          .finished ending) ↔
      c.guessing.roundLimit ≠ 4294967295 := by
  constructor
  · intro hcounts hlimit
    have hrange : c.guessing.guessMin ≤ c.guessing.guessMax :=
      (Settings.problem?_eq_none_iff.mp (Settings.validate_eq_ok_iff.mp h).1).2.2.2.1
    have hne : c.guessing.guessMin ≠ c.guessing.guessMin + 1 := by grind
    -- the least number of the range is guessed `k` times, for a `k` at which no room is left
    have hroom : ∀ k, (UInt32.ofNat k).toNat + 1 < UInt32.size := by
      intro k
      have hguesses : ∀ guess ∈ List.replicate k c.guessing.guessMin,
          c.guessing.guessMin ≤ guess ∧ guess ≤ c.guessing.guessMax ∧
            guess ≠ c.guessing.guessMin + 1 := by
        intro guess hguess
        rw [List.eq_of_mem_replicate hguess]
        exact ⟨Int64.le_refl _, hrange, hne⟩
      obtain ⟨hready, -⟩ := missed_new hlimit hguesses []
      rw [List.length_replicate] at hready
      exact (((hcounts _ _ _).1 _).playing hready.state).2.2
    exact absurd (hroom 4294967295) (by decide)
  · intro hlimit judge contestant w start
    have hcounts := countsLines_afterSteps c.guessing judge contestant w hlimit
    refine ⟨hcounts, fun n hread => ?_⟩
    have hlast := hcounts (n + (c.guessing.roundLimit.toNat + 1))
    rw [afterSteps_add] at hlast
    refine (finished_or_le_roundsMade hread _).elim id fun hle => ?_
    cases hstate : ((start.afterSteps n).afterSteps (c.guessing.roundLimit.toNat + 1)).state with
    | awaitTarget => exact absurd hstate (state_afterSteps_ne hread _)
    | playing target rounds =>
      obtain ⟨hsent, hunder, -⟩ := hlast.playing hstate
      rw [hsent.made] at hle
      rw [UInt32.le_iff_toNat_le] at hunder
      exact absurd (hle.trans hunder) (Nat.not_succ_le_self _)
    | finished ending => exact ⟨ending, rfl⟩

/-- The greatest limit but one is far away for a session of two rounds. -/
theorem countsLines_iff_greatest_but_one :
    let c : Settings := { Settings.standard with guessing := ⟨4294967294, 1, 100⟩ }
    let start := Session.new c.guessing (.ofTexts ["50"]) (.ofTexts ["25\n7", "5\n50"]) .working
    c.validate = .ok c ∧ CountsLines start (start.afterSteps 3) ∧
      (start.afterSteps 3).state = .playing 50 2 := by
  intro c start
  have hvalid : c.validate = .ok c := Settings.validate_eq_ok_iff.mpr ⟨by decide, rfl⟩
  exact ⟨hvalid, (((countsLines_iff hvalid).mpr (by decide)) _ _ _).1 3, by decide⟩

/-- The target is 2, and the contestant guesses 1 for `k` times in front of it. -/
def hitAfter (settings : GuessingSettings) (k : Nat) : Session :=
  Session.new settings (.buffered bufferSize (guessLine 2))
    (.buffered bufferSize ((List.replicate k (1 : Int64) ++ [2]).flatMap guessLine)) .working

theorem afterSteps_hitAfter (k : Nat) :
    let s := (hitAfter ⟨4294967295, 1, 2000000000⟩ k).afterSteps (k + 1)
    s.state = .playing 2 (UInt32.ofNat k) ∧ s.roundsMade = k ∧
      s.toContestant.written = signalLines 2 (List.replicate k 1) ∧
      s.step.2.state = .finished (.accepted (UInt32.ofNat k + 1)) := by
  intro s
  have hmisses : ∀ guess ∈ List.replicate k (1 : Int64),
      (1 : Int64) ≤ guess ∧ guess ≤ 2000000000 ∧ guess ≠ 2 := by
    intro guess hguess
    rw [List.eq_of_mem_replicate hguess]
    decide
  have hlimit : (⟨4294967295, 1, 2000000000⟩ : GuessingSettings).roundLimit = 4294967295 := rfl
  obtain ⟨hready, hsettings, hmade, hwritten⟩ := missed_new hlimit hmisses [2]
  rw [List.length_replicate] at hready hsettings hmade hwritten
  have hhit : GuessingSettings.guess? ⟨4294967295, 1, 2000000000⟩
      (Bytes.ofString (2 : Int64).toInt.repr) = some 2 := Game.guess?_repr (by decide) (by decide)
  refine ⟨hready.state, hmade, hwritten, ?_⟩
  exact Ready.hit_step hready (congrArg _ hsettings)
    (hsettings ▸ hhit)

/-- After 4294967296 misses the counter is zero again, and a hit is reported as the first guess. -/
theorem counter_wraps_around :
    let settings : GuessingSettings := ⟨4294967295, 1, 2000000000⟩
    let s := (hitAfter settings 4294967296).afterSteps (4294967296 + 1)
    (∃ c : Settings, c.validate = .ok c ∧ c.guessing = settings) ∧
      s.state = .playing 2 0 ∧ s.roundsMade = 4294967296 ∧
      s.toContestant.written = signalLines 2 (List.replicate 4294967296 1) ∧
      s.step.2.state = .finished (.accepted 1) :=
  ⟨⟨{ Settings.standard with guessing := ⟨4294967295, 1, 2000000000⟩ },
    Settings.validate_eq_ok_iff.mpr ⟨by decide, rfl⟩, rfl⟩, afterSteps_hitAfter 4294967296⟩

end Referee.Guessing.Session
