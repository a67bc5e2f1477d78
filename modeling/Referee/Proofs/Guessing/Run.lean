import Referee.Proofs.Guessing.Round

/-!
# A whole run of the guessing session

Over steady streams and a reliable writer the run is decided by the contestant's tokens alone. A
token `Stops` the game if it is no guess, if it comes after the last round or if it hits the
target. The tokens in front of the first such token take one round each (`Reaches.next`); the run
ends with that token, or with the end of the stream if there is none.
-/

namespace Referee

/-- The token, as the `i`-th one, ends the game. -/
def GuessingSettings.Stops (settings : GuessingSettings) (target : Int64) (i : Nat) (token : Bytes) :
    Prop :=
  settings.guess? token = none ∨ i = settings.roundLimit.toNat + 1 ∨
    settings.guess? token = some target

instance GuessingSettings.decidableStops (settings : GuessingSettings) (target : Int64) (i : Nat)
    (token : Bytes) : Decidable (settings.Stops target i token) :=
  inferInstanceAs (Decidable (_ ∨ _ ∨ _))

theorem GuessingSettings.passes_of_not_stops {settings : GuessingSettings} {target : Int64} {i : Nat}
    {token : Bytes} (h : ¬ settings.Stops target i token) :
    ∃ guess, settings.guess? token = some guess ∧ guess ≠ target ∧
      i ≠ settings.roundLimit.toNat + 1 := by
  simp only [Stops, not_or] at h
  obtain ⟨hg, hi, ht⟩ := h
  obtain ⟨guess, hg⟩ := Option.ne_none_iff_exists'.mp hg
  exact ⟨guess, hg, fun e => ht (e ▸ hg), hi⟩

namespace Guessing.Session

/-- The session ends with the given report, and has answered as many of the tokens `gs` as it
reports rounds, each with its line. -/
def EndsWith (s : Session) (target : Int64) (gs : List Bytes) (verdict : Verdict) (rounds : Nat)
    (message : String) : Prop :=
  ∃ (ending : Ending) (s' : Session) (guesses : List Int64), s.run = (.ok ending, s') ∧
    ending.verdict = verdict ∧ ending.rounds.toNat = rounds ∧ ending.message = message ∧
    (gs.take rounds).map s.settings.guess? = guesses.map some ∧
    s'.toContestant.written = s.toContestant.written ++ signalLines target guesses

/-- A game after some rounds, with the tokens `gs` still to come. -/
structure Ready (s : Session) (target : Int64) (rounds : UInt32) (gs : List Bytes) : Prop where
  state : s.state = .playing target rounds
  steady : s.contestant.Steady
  tokens : tokens s.contestant.bytes = gs
  short : ∀ g ∈ gs, g.length ≤ maxTokenLength
  reliable : s.toContestant.Reliable

section Round

variable {s : Session} {target guess : Int64} {rounds : UInt32} {g : Bytes} {gs : List Bytes}

/-- A guess is answered with its line, and nothing of it is held back, before the game goes on or
ends. -/
theorem Ready.playRound_answered (h : s.Ready target rounds (g :: gs))
    (hg : s.settings.guess? g = some guess) : ∃ s' : Session,
    s.playRound target rounds = s'.settle target guess (rounds + 1) ∧ s'.settings = s.settings ∧
      s'.contestant.Steady ∧ Referee.tokens s'.contestant.bytes = gs ∧ s'.toContestant.Reliable ∧
      s'.toContestant.Flushed ∧
      s'.toContestant.written = s.toContestant.written ++ signalLine target guess := by
  obtain ⟨r, hr, htokens, hread⟩ := Reader.readToken_of_tokens contestantChannel
    h.steady h.tokens (h.short g List.mem_cons_self)
  have hsend := Writer.sendLine_of_reliable h.reliable contestantChannel (signalWord target guess)
  rw [playRound_of_answered hread hg hsend]
  obtain ⟨hwritten, hflushed⟩ := written_of_sent hsend
  exact ⟨_, rfl, rfl, hr, htokens, h.reliable, hflushed, hwritten⟩

theorem Ready.run_answered (h : s.Ready target rounds (g :: gs))
    (hg : s.settings.guess? g = some guess) : ∃ s' : Session,
    s.run = (s'.settle target guess (rounds + 1)).run ∧ s'.settings = s.settings ∧
      s'.contestant.Steady ∧ Referee.tokens s'.contestant.bytes = gs ∧ s'.toContestant.Reliable ∧
      s'.toContestant.written = s.toContestant.written ++ signalLine target guess := by
  obtain ⟨s', hplay, hsettings, hsteady, htokens, hreliable, -, hwritten⟩ := h.playRound_answered hg
  rw [run_of_playing h.state, hplay]
  exact ⟨s', rfl, hsettings, hsteady, htokens, hreliable, hwritten⟩

theorem Ready.run_accepted (h : s.Ready target rounds (g :: gs))
    (hg : s.settings.guess? g = some target) (hlimit : ¬ s.settings.roundLimit < rounds + 1) :
    ∃ s' : Session, s.run = (.ok (.accepted (rounds + 1)), s') ∧
      s'.toContestant.written = s.toContestant.written ++ signalLine target target := by
  obtain ⟨s', hrun, hsettings, -, -, -, hwritten⟩ := h.run_answered hg
  rw [hrun, settle, if_neg (by rwa [hsettings]), if_pos rfl]
  exact ⟨_, run_of_finished rfl, hwritten⟩

theorem Ready.run_next (h : s.Ready target rounds (g :: gs)) (hg : s.settings.guess? g = some guess)
    (hlimit : ¬ s.settings.roundLimit < rounds + 1) (hne : guess ≠ target) :
    ∃ s' : Session, s.run = s'.run ∧ s'.Ready target (rounds + 1) gs ∧ s'.settings = s.settings ∧
      s'.toContestant.written = s.toContestant.written ++ signalLine target guess := by
  obtain ⟨s', hrun, hsettings, hsteady, htokens, hreliable, hwritten⟩ := h.run_answered hg
  rw [hrun, settle, if_neg (by rwa [hsettings]), if_neg hne]
  refine ⟨_, rfl, ⟨rfl, hsteady, htokens, ?_, hreliable⟩, hsettings, hwritten⟩
  exact fun g' hg' => h.short g' (List.mem_cons_of_mem _ hg')

end Round

/-! ## The tokens in front of the one that stops the game -/

/-- The game has come to its token `i`, and has answered every token before. -/
structure Reaches (s : Session) (target : Int64) (gs : List Bytes) (i : Nat) (s' : Session)
    (rounds : UInt32) (guesses : List Int64) : Prop where
  run : s.run = s'.run
  ready : s'.Ready target rounds (gs.drop i)
  settings : s'.settings = s.settings
  count : rounds.toNat = i
  limit : i ≤ s.settings.roundLimit.toNat
  guessed : (gs.take i).map s.settings.guess? = guesses.map some
  written : s'.toContestant.written = s.toContestant.written ++ signalLines target guesses

section Reach

variable {s s' s'' : Session} {target guess : Int64} {gs : List Bytes} {g : Bytes} {i : Nat}
  {rounds : UInt32} {guesses : List Int64} {ending : Ending}

theorem Ready.reaches_zero (h : s.Ready target 0 gs) : s.Reaches target gs 0 s 0 [] :=
  ⟨rfl, h, rfl, rfl, Nat.zero_le _, rfl, (List.append_nil _).symm⟩

theorem Reaches.token (h : s.Reaches target gs i s' rounds guesses) (hg : gs[i]? = some g) :
    s'.Ready target rounds (g :: gs.drop (i + 1)) := by
  obtain ⟨hi, rfl⟩ := List.getElem?_eq_some_iff.mp hg
  rw [← List.drop_eq_getElem_cons hi]
  exact h.ready

theorem Reaches.guessed_snoc (h : s.Reaches target gs i s' rounds guesses) (hg : gs[i]? = some g)
    (hguess : s.settings.guess? g = some guess) :
    (gs.take (i + 1)).map s.settings.guess? = (guesses ++ [guess]).map some := by
  rw [List.take_add_one, hg, List.map_append, h.guessed, List.map_append]
  exact congrArg _ (congrArg (· :: []) hguess)

theorem Reaches.written_snoc (h : s.Reaches target gs i s' rounds guesses)
    (hw : s''.toContestant.written = s'.toContestant.written ++ signalLine target guess) :
    s''.toContestant.written =
      s.toContestant.written ++ signalLines target (guesses ++ [guess]) := by
  rw [hw, h.written, signalLines_snoc, List.append_assoc]

/-- A token that does not stop the game takes one round. -/
theorem Reaches.next (h : s.Reaches target gs i s' rounds guesses) (hg : gs[i]? = some g)
    (hgo : ¬ s.settings.Stops target (i + 1) g) :
    ∃ s'' guess, s.Reaches target gs (i + 1) s'' (rounds + 1) (guesses ++ [guess]) := by
  obtain ⟨guess, hguess, hne, hi⟩ := GuessingSettings.passes_of_not_stops hgo
  have hle := h.limit
  have hsucc : (rounds + 1).toNat = i + 1 := by
    have hlt := s.settings.roundLimit.toNat_lt_size
    rw [toNat_succ (by rw [h.count]; omega), h.count]
  have hunder : ¬ s'.settings.roundLimit < rounds + 1 := by
    rw [h.settings, UInt32.lt_iff_toNat_lt]
    omega
  obtain ⟨s'', hrun, hready, hsettings, hw⟩ :=
    (h.token hg).run_next (by rw [h.settings, hguess]) hunder hne
  exact ⟨s'', guess, h.run.trans hrun, hready, hsettings.trans h.settings, hsucc, by omega,
    h.guessed_snoc hg hguess, h.written_snoc hw⟩

/-- **A game comes to its first token that stops it**, and to the end of the stream if there is
none. -/
theorem Ready.reaches (h : s.Ready target 0 gs) (hi : i ≤ gs.length)
    (hleast : ∀ j g, j < i → gs[j]? = some g → ¬ s.settings.Stops target (j + 1) g) :
    ∃ s' rounds guesses, s.Reaches target gs i s' rounds guesses := by
  induction i with
  | zero => exact ⟨s, 0, [], h.reaches_zero⟩
  | succ i ih =>
    have hg : gs[i]? = some gs[i] := List.getElem?_eq_getElem hi
    obtain ⟨s', rounds, guesses, hr⟩ := ih (by omega) fun j g hj => hleast j g (by omega)
    obtain ⟨s'', guess, hr'⟩ := hr.next hg (hleast i _ (Nat.lt_succ_self i) hg)
    exact ⟨s'', _, _, hr'⟩

/-- An ending that answers the guess at hand. -/
theorem Reaches.endsWith_answered (h : s.Reaches target gs i s' rounds guesses)
    (hg : gs[i]? = some g) (hguess : s.settings.guess? g = some guess)
    (hend : s'.run = (.ok ending, s'')) (hrounds : ending.rounds.toNat = i + 1)
    (hw : s''.toContestant.written = s'.toContestant.written ++ signalLine target guess) :
    s.EndsWith target gs ending.verdict (i + 1) ending.message :=
  ⟨ending, s'', guesses ++ [guess], h.run.trans hend, rfl, hrounds, rfl, h.guessed_snoc hg hguess,
    h.written_snoc hw⟩

end Reach

/-! ## The token that stops the game -/

section Stop

variable {s : Session} {target guess : Int64} {gs : List Bytes} {g : Bytes} {i : Nat}

theorem Ready.endsWith_accepted (h : s.Ready target 0 gs) (hg : gs[i]? = some g)
    (hleast : ∀ j g, j < i → gs[j]? = some g → ¬ s.settings.Stops target (j + 1) g)
    (hguess : s.settings.guess? g = some target) (hcount : gs.length < UInt32.size)
    (hbefore : i + 1 ≠ s.settings.roundLimit.toNat + 1) :
    s.EndsWith target gs .accepted (i + 1) ("ok " ++ (i + 1).repr ++ " guesses") := by
  have hi : i < gs.length := (List.getElem?_eq_some_iff.mp hg).1
  obtain ⟨s', rounds, guesses, hr⟩ := h.reaches hi.le hleast
  have hlimit := hr.limit
  have hsucc : (rounds + 1).toNat = i + 1 := by
    rw [toNat_succ (by rw [hr.count]; omega), hr.count]
  have hunder : ¬ s'.settings.roundLimit < rounds + 1 := by
    rw [hr.settings, UInt32.lt_iff_toNat_lt]
    omega
  obtain ⟨s'', hend, hw⟩ := (hr.token hg).run_accepted (by rw [hr.settings, hguess]) hunder
  have hends := hr.endsWith_answered hg hguess hend hsucc hw
  rwa [Ending.accepted, hsucc] at hends

end Stop

/-! ## From the target to the end -/

/-- The first step reads the target and leaves the contestant to be read. -/
theorem ready_opened (settings : GuessingSettings) {judge contestant : Reader} {w : Writer}
    {token : Bytes} {rest : List Bytes} {target : Int64}
    (hjudge : judge.Steady) (htoken : tokens judge.bytes = token :: rest)
    (hshort : token.length ≤ maxTokenLength) (htarget : Decimal.readInteger token = .value target)
    (hcontestant : contestant.Steady)
    (hshorts : ∀ g ∈ tokens contestant.bytes, g.length ≤ maxTokenLength) (hw : w.Reliable) :
    ∃ s : Session, (Session.new settings judge contestant w).step = (.ok (), s) ∧
      s.Ready target 0 (Referee.tokens contestant.bytes) ∧ s.settings = settings ∧
      s.toContestant = w ∧ s.trail = [startEntry settings] := by
  obtain ⟨judge', -, -, hread⟩ := Reader.readToken_of_tokens judgeChannel hjudge htoken hshort
  have hopen := readTarget_eq_ok_iff.mpr ⟨token, hread, htarget⟩
  exact ⟨_, step_of_opened rfl hopen, ⟨rfl, hcontestant, rfl, hshorts, hw⟩, rfl, rfl, rfl⟩

theorem run_opened (settings : GuessingSettings) {judge contestant : Reader} {w : Writer}
    {token : Bytes} {rest : List Bytes} {target : Int64}
    (hjudge : judge.Steady) (htoken : tokens judge.bytes = token :: rest)
    (hshort : token.length ≤ maxTokenLength) (htarget : Decimal.readInteger token = .value target)
    (hcontestant : contestant.Steady)
    (hshorts : ∀ g ∈ tokens contestant.bytes, g.length ≤ maxTokenLength) (hw : w.Reliable) :
    ∃ s : Session, (Session.new settings judge contestant w).run = s.run ∧
      s.Ready target 0 (Referee.tokens contestant.bytes) ∧ s.settings = settings ∧
      s.toContestant = w := by
  obtain ⟨s, hstep, hready, hsettings, hwriter, -⟩ := ready_opened settings hjudge htoken hshort
    htarget hcontestant hshorts hw
  exact ⟨s, run_of_step (fun _ => nofun) hstep, hready, hsettings, hwriter⟩

end Guessing.Session

end Referee
