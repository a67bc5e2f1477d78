import Referee.Proofs.Guessing.Safety
import Referee.Proofs.Reading

/-!
# The guessing session in lock step with its contestant

`s.andThen q` is the session `s` whose contestant goes on with `q` behind everything else. While
there is a token with a blank behind it in `s`, the two take the same step and `q` stays unread
(`Supplied.step_andThen`). So the answer to a guess is out before anything behind its delimiter is
asked for, and what comes later makes no difference (`afterSteps_of_same_front`).
-/

namespace Referee.Guessing.Session

/-- The session with more to come from the contestant. -/
def andThen (s : Session) (q : Reader) : Session := { s with contestant := s.contestant ++ q }

/-- The contestant's stream holds a token for each of the next `n` steps. -/
structure Supplied (n : Nat) (s : Session) : Prop where
  steady : s.contestant.Steady
  awaiting : s.state = .awaitTarget → n ≤ (delimitedTokens s.contestant.bytes).length + 1
  playing : ∀ target rounds, s.state = .playing target rounds →
    n ≤ (delimitedTokens s.contestant.bytes).length

section Step

variable {s : Session} {n : Nat}

theorem settle_andThen (s : Session) (target guess : Int64) (rounds : UInt32) (q : Reader) :
    (s.andThen q).settle target guess rounds = (s.settle target guess rounds).andThen q := by
  rw [settle, settle, apply_ite (andThen · q), apply_ite (andThen · q)]
  rfl

theorem contestant_settle (s : Session) (target guess : Int64) (rounds : UInt32) :
    (s.settle target guess rounds).contestant = s.contestant := by
  unfold settle
  split
  · rfl
  · split <;> rfl

/-- What comes behind a token and its blank makes no difference to a round. -/
theorem playRound_andThen {q : Reader} (target : Int64) (rounds : UInt32)
    (hread : (s.contestant ++ q).readToken contestantChannel =
      ((s.contestant.readToken contestantChannel).1,
        (s.contestant.readToken contestantChannel).2 ++ q)) :
    (s.andThen q).playRound target rounds = (s.playRound target rounds).andThen q := by
  rcases hres : s.contestant.readToken contestantChannel with ⟨e | token, r⟩
  · rw [hres] at hread
    rw [playRound_of_unread hres]
    exact playRound_of_unread hread
  rw [hres] at hread
  cases hguess : s.settings.guess? token with
  | none =>
    rw [playRound_of_refused hres hguess]
    exact playRound_of_refused hread hguess
  | some guess =>
    rcases hsend : s.toContestant.sendLine contestantChannel (signalWord target guess)
      with ⟨e | _, w⟩
    · rw [playRound_of_unanswered hres hguess hsend]
      exact playRound_of_unanswered hread hguess hsend
    · rw [playRound_of_answered hres hguess hsend, ← settle_andThen]
      exact playRound_of_answered hread hguess hsend

theorem Supplied.delimitedTokens_ne_nil {target : Int64} {rounds : UInt32} (h : Supplied (n + 1) s)
    (hstate : s.state = .playing target rounds) : delimitedTokens s.contestant.bytes ≠ [] := by
  have hlen := h.playing _ _ hstate
  apply List.ne_nil_of_length_pos
  omega

/-- **A step leaves unread whatever comes after the tokens it is supplied with.** -/
theorem Supplied.step_andThen (h : Supplied (n + 1) s) (q : Reader) :
    (s.andThen q).step = (s.step.1, s.step.2.andThen q) := by
  cases hstate : s.state with
  | awaitTarget =>
    rcases hread : readTarget s.judge with ⟨e | target, judge⟩
    · rw [step_of_missed hstate hread]
      exact step_of_missed hstate hread
    · rw [step_of_opened hstate hread]
      exact step_of_opened hstate hread
  | playing target rounds =>
    have hread := (Reader.readToken_append contestantChannel h.steady
      (h.delimitedTokens_ne_nil hstate) q).1
    rw [step_of_playing hstate, ← playRound_andThen target rounds hread]
    exact step_of_playing hstate
  | finished ending =>
    rw [step_of_finished hstate]
    exact step_of_finished hstate

theorem Supplied.of_finished {ending : Ending} (hsteady : s.contestant.Steady)
    (hstate : s.state = .finished ending) : Supplied n s where
  steady := hsteady
  awaiting := fun h => by cases hstate.symm.trans h
  playing := fun _ _ h => by cases hstate.symm.trans h

/-- A step uses up at most one of the tokens. -/
theorem Supplied.step {s' : Session} (h : Supplied (n + 1) s) (hstep : Step s s') : Supplied n s' := by
  cases hstep with
  | missed hstate hread =>
    exact ⟨h.steady, fun _ => Nat.le_of_succ_le (h.awaiting hstate),
      fun _ _ hplay => by cases hstate.symm.trans hplay⟩
  | opened hstate hread =>
    exact ⟨h.steady, nofun, fun _ _ _ => Nat.le_of_succ_le_succ (h.awaiting hstate)⟩
  | unread hstate hread => exact .of_finished (h.steady.readToken hread) rfl
  | refused hstate hread hguess => exact .of_finished (h.steady.readToken hread) rfl
  | unanswered hstate hread hguess hsend => exact .of_finished (h.steady.readToken hread) rfl
  | answered hstate hread hguess hsend =>
    have hlen := h.playing _ _ hstate
    have hnext := (Reader.readToken_append contestantChannel h.steady
      (h.delimitedTokens_ne_nil hstate) []).2 _ (by rw [hread])
    rw [hread] at hnext
    rw [hnext] at hlen
    refine ⟨?_, fun hawait => (state_settle_ne _ _ _ _ hawait).elim, fun _ _ _ => ?_⟩
    · rw [contestant_settle]
      exact h.steady.readToken hread
    · rw [contestant_settle]
      exact Nat.le_of_succ_le_succ hlen
  | stayed hstate => exact .of_finished h.steady hstate

end Step

/-! ## Steps one after the other -/

theorem Supplied.afterSteps_andThen {s : Session} {m n : Nat} (h : Supplied m s) (hn : n ≤ m)
    (q : Reader) :
    (s.andThen q).afterSteps n = (s.afterSteps n).andThen q ∧ Supplied (m - n) (s.afterSteps n) := by
  induction n with
  | zero => exact ⟨rfl, h⟩
  | succ n ih =>
    obtain ⟨heq, hsupplied⟩ := ih (Nat.le_of_succ_le hn)
    rw [← Nat.sub_add_cancel (Nat.sub_pos_of_lt hn), Nat.sub_sub] at hsupplied
    constructor
    · rw [afterSteps, afterSteps, heq, hsupplied.step_andThen q]
    · exact hsupplied.step (step_spec _)

theorem supplied_new (settings : GuessingSettings) (judge : Reader) {front : Reader} (w : Writer)
    {k : Nat} (hfront : front.Steady) (hk : k ≤ (delimitedTokens front.bytes).length) :
    Supplied (k + 1) (Session.new settings judge front w) :=
  ⟨hfront, fun _ => Nat.succ_le_succ hk, nofun⟩

/-- **No reading ahead.** Let two contestants send the same buffers up to some point, with a blank
behind each of `k` tokens in them, and whatever else after that point. Then the first `k + 1` steps
of the two sessions are the same in what they come to, write and record, and leave all that comes
after the common buffers unread. -/
theorem afterSteps_of_same_front (settings : GuessingSettings) (judge : Reader) {front : Reader}
    (w : Writer) {k : Nat} (hfront : front.Steady)
    (hk : k ≤ (delimitedTokens front.bytes).length) (q₁ q₂ : Reader) {n : Nat} (hn : n ≤ k + 1) :
    let s₁ := (Session.new settings judge (front ++ q₁) w).afterSteps n
    let s₂ := (Session.new settings judge (front ++ q₂) w).afterSteps n
    s₁.state = s₂.state ∧ s₁.toContestant = s₂.toContestant ∧ s₁.trail = s₂.trail ∧
      s₁.judge = s₂.judge ∧ (n ≤ k → s₁.step.1 = s₂.step.1) ∧
      ∃ unread, s₁.contestant = unread ++ q₁ ∧ s₂.contestant = unread ++ q₂ := by
  have hnew := supplied_new settings judge w hfront hk
  have hafter : ∀ q, (Session.new settings judge (front ++ q) w).afterSteps n =
      ((Session.new settings judge front w).afterSteps n).andThen q :=
    fun q => (hnew.afterSteps_andThen hn q).1
  have hresult : n ≤ k → ∀ q, (((Session.new settings judge front w).afterSteps n).andThen q).step.1 =
      ((Session.new settings judge front w).afterSteps n).step.1 := by
    intro hlt q
    have hsupplied := (hnew.afterSteps_andThen hn q).2
    rw [Nat.succ_sub hlt] at hsupplied
    rw [hsupplied.step_andThen q]
  rw [hafter q₁, hafter q₂]
  refine ⟨rfl, rfl, rfl, rfl, fun hlt => ?_, _, rfl, rfl⟩
  rw [hresult hlt q₁, hresult hlt q₂]

/-- The second guess is answered before the fault or the buffer behind it is met. -/
theorem afterSteps_of_same_front_cut :
    let front := Reader.ofTexts ["2", "5 7", "5\n5"]
    let s₁ := (Session.new ⟨3, 1, 100⟩ (.ofTexts ["50"]) (front ++ [.fault ⟨.timedOut, ""⟩])
      .working).afterSteps 3
    let s₂ := (Session.new ⟨3, 1, 100⟩ (.ofTexts ["50"]) (front ++ .ofTexts ["0\n"])
      .working).afterSteps 3
    s₁.state = .playing 50 2 ∧ s₁.state = s₂.state ∧ s₁.toContestant = s₂.toContestant ∧
      s₁.trail = s₂.trail := by
  intro front s₁ s₂
  have hfront : front.Steady := Reader.steady_ofTexts (by decide)
  have hk : 2 ≤ (delimitedTokens front.bytes).length := by decide
  have hsame := afterSteps_of_same_front ⟨3, 1, 100⟩ (.ofTexts ["50"]) .working hfront hk
    [.fault ⟨.timedOut, ""⟩] (.ofTexts ["0\n"]) (le_refl (2 + 1))
  exact ⟨by decide, hsame.1, hsame.2.1, hsame.2.2.1⟩

end Referee.Guessing.Session
