import Referee.Proofs.Faults
import Referee.Proofs.Guessing.Safety
import Referee.Proofs.Integers

/-!
# Who is to blame

A session fails only at the target: `NoTarget` lists what can be wrong with the judge's stream and
the failure that each problem is reported as. Once the target has been read every step succeeds and
uses up a part of the contestant's stream, so the session comes to its ending, whatever the
contestant sends or refuses.
-/

namespace Referee.Guessing

open Session (readTarget)

/-- The judge's stream gives no target and is left as `judge'`; the failure says why. -/
inductive NoTarget (judge judge' : Reader) : Failure → Prop where
  | ended (h : Reader.Breaks [] judge .ended judge') :
      NoTarget judge judge' (.protocol "judge input holds no target")
  | gone {f : Fault} (h : Reader.Breaks [] judge (.fault f) judge')
      (hk : f.kind = .brokenPipe ∨ f.kind = .unexpectedEof ∨ f.kind = .connectionReset) :
      NoTarget judge judge' (.protocol "judge input holds no target")
  | faulty {f : Fault} (h : Reader.Breaks [] judge (.fault f) judge')
      (hk : ¬ (f.kind = .brokenPipe ∨ f.kind = .unexpectedEof ∨ f.kind = .connectionReset)) :
      NoTarget judge judge' (.io f)
  | tooLong (h : Reader.Breaks [] judge .tooLong judge') :
      NoTarget judge judge' (.protocol "token on 'judge' exceeds 65536 bytes")
  | notAnInteger {token : Bytes} (h : judge.readToken judgeChannel = (.ok token, judge'))
      (hn : ∀ n : Int64, ¬ Decimal.Denotes token n.toInt) :
      NoTarget judge judge'
        (.protocol ("judge target is not a 64-bit integer: '" ++ Ending.shown token ++ "'"))

section NoTarget

variable {judge judge' : Reader} {e : Failure}

theorem Session.targetFailure_ofFault_of_gone {f : Fault} (hk : f.kind.isPeerClosed = true) :
    targetFailure ((Break.fault f).failure judgeChannel) = .protocol "judge input holds no target" := by
  rw [Break.failure, Failure.ofFault, if_pos hk]
  rfl

theorem Session.targetFailure_ofFault_of_faulty {f : Fault} (hk : ¬ f.kind.isPeerClosed = true) :
    targetFailure ((Break.fault f).failure judgeChannel) = .io f := by
  rw [Break.failure, Failure.ofFault, if_neg hk]
  rfl

theorem noTarget_of_breaks {b : Break} (h : Reader.Breaks [] judge b judge') :
    NoTarget judge judge' (Session.targetFailure (b.failure judgeChannel)) := by
  cases b with
  | ended => exact .ended h
  | fault f =>
    by_cases hk : f.kind.isPeerClosed = true
    · rw [Session.targetFailure_ofFault_of_gone hk]
      exact .gone h (FaultKind.isPeerClosed_iff.mp hk)
    · rw [Session.targetFailure_ofFault_of_faulty hk]
      exact .faulty h fun h' => hk (FaultKind.isPeerClosed_iff.mpr h')
  | tooLong => exact .tooLong h

/-- A stream that breaks in front of its first token gives no target. -/
theorem readTarget_of_breaks {b : Break} (h : Reader.Breaks [] judge b judge') :
    readTarget judge = (.error (Session.targetFailure (b.failure judgeChannel)), judge') := by
  rw [readTarget, Reader.readToken, h.continueToken_eq]

theorem readTarget_of_not_integer {token : Bytes}
    (hread : judge.readToken judgeChannel = (.ok token, judge'))
    (hn : ∀ n, Decimal.readInteger token ≠ .value n) :
    readTarget judge = (.error (Session.badTarget token), judge') := by
  rw [readTarget, hread]
  cases hi : Decimal.readInteger token with
  | value n => exact absurd hi (hn n)
  | outOfRange => simp only [hi]
  | malformed => simp only [hi]

/-- **The target cannot be read** in just these ways. -/
theorem readTarget_eq_error_iff : readTarget judge = (.error e, judge') ↔ NoTarget judge judge' e := by
  constructor
  · intro h
    rcases hread : judge.readToken judgeChannel with ⟨e' | token, judge''⟩
    · obtain ⟨b, -, hb⟩ := Reader.readToken_eq_error_iff.mp hread
      cases (readTarget_of_breaks hb).symm.trans h
      exact noTarget_of_breaks hb
    · have hn : ∀ n, Decimal.readInteger token ≠ .value n := fun n hn => by
        cases (Session.readTarget_eq_ok_iff.mpr ⟨token, hread, hn⟩).symm.trans h
      cases (readTarget_of_not_integer hread hn).symm.trans h
      exact .notAnInteger hread fun n hd => hn n (Decimal.readInteger_eq_value_iff.mpr hd)
  · intro h
    cases h with
    | ended h => exact readTarget_of_breaks h
    | gone h hk =>
      rw [readTarget_of_breaks h,
        Session.targetFailure_ofFault_of_gone (FaultKind.isPeerClosed_iff.mpr hk)]
    | faulty h hk =>
      rw [readTarget_of_breaks h,
        Session.targetFailure_ofFault_of_faulty fun h' => hk (FaultKind.isPeerClosed_iff.mp h')]
    | tooLong h => exact readTarget_of_breaks h
    | notAnInteger h hn =>
      exact readTarget_of_not_integer h fun n hi => hn n (Decimal.readInteger_eq_value_iff.mp hi)

end NoTarget

namespace Session

/-! ## Failing steps and runs -/

/-- The session after a try at the target that has failed. -/
def missed (s : Session) (judge' : Reader) (e : Failure) : Session :=
  { s with judge := judge' }.record
    ((Audit.Entry.plain .protocolError e.message).withChannel judgeChannel)

section Fail

variable {s s' : Session} {e : Failure}

theorem step_eq_error_iff : s.step = (.error e, s') ↔
    s.state = .awaitTarget ∧ ∃ judge', NoTarget s.judge judge' e ∧ s' = s.missed judge' e := by
  constructor
  · intro h
    obtain ⟨hstate, judge', hread, hs'⟩ := missed_of_step_error h
    exact ⟨hstate, judge', readTarget_eq_error_iff.mp hread, hs'⟩
  · rintro ⟨hstate, judge', hno, rfl⟩
    exact step_of_missed hstate (readTarget_eq_error_iff.mpr hno)

/-- A step that does not fail leaves no target to be awaited. -/
theorem Goes.state_ne (h : Goes s s') : s'.state ≠ .awaitTarget := by
  cases h.step with
  | missed hstate hread => cases (step_of_missed hstate hread).symm.trans h
  | opened => nofun
  | unread => nofun
  | refused => nofun
  | unanswered => nofun
  | answered => exact state_settle_ne _ _ _ _
  | stayed hstate =>
    rw [hstate]
    nofun

theorem goes_of_state_ne (h : s.state ≠ .awaitTarget) : Goes s s.step.2 := by
  rcases hstep : s.step with ⟨e | _, s'⟩
  · exact absurd (step_eq_error_iff.mp hstep).1 h
  · exact hstep

/-- A run fails with its first step, or not at all. -/
theorem run_eq_error_iff : s.run = (.error e, s') ↔ s.step = (.error e, s') := by
  constructor
  · intro h
    obtain ⟨s₁, hgoes, ⟨ending, herr, -⟩ | ⟨e', herr, hfail⟩⟩ := exists_goes_of_run h
    · cases herr
    · cases herr
      -- a step that has succeeded has read the target, after which none fails
      rcases Relation.ReflTransGen.cases_tail hgoes with rfl | ⟨s₂, -, hlast⟩
      · exact hfail
      · exact absurd (step_eq_error_iff.mp hfail).1 hlast.state_ne
  · intro h
    have hstate := (step_eq_error_iff.mp h).1
    exact run_of_failed (by rw [hstate]; nofun) h

end Fail

/-! ## Runs that come to an ending -/

theorem afterSteps_succ (s : Session) (n : Nat) : s.afterSteps (n + 1) = s.step.2.afterSteps n := by
  induction n with
  | zero => rfl
  | succ n ih => rw [afterSteps, ih, afterSteps]

/-- Once the target has been read, no step fails. -/
theorem state_afterSteps_ne {s : Session} (h : s.state ≠ .awaitTarget) (n : Nat) :
    (s.afterSteps n).state ≠ .awaitTarget := by
  induction n with
  | zero => exact h
  | succ n ih => exact (goes_of_state_ne ih).state_ne

/-- A session whose next step succeeds ends after no more steps than its streams allow. -/
theorem exists_afterSteps_finished {s : Session} (h : Goes s s.step.2) :
    ∃ n ending, n ≤ s.remaining ∧ (s.afterSteps n).state = .finished ending ∧
      s.run = (.ok ending, s.afterSteps n) := by
  induction hn : s.remaining using Nat.strong_induction_on generalizing s with
  | _ m ih =>
    subst hn
    by_cases hend : ∃ ending, s.state = .finished ending
    · obtain ⟨ending, hstate⟩ := hend
      exact ⟨0, ending, Nat.zero_le _, hstate, run_of_finished hstate⟩
    have hne : ∀ ending, s.state ≠ .finished ending := fun ending hstate => hend ⟨ending, hstate⟩
    have hlt := remaining_step_lt h (remaining_ne_zero hne)
    obtain ⟨n, ending, hle, hstate, hrun⟩ := ih _ hlt (goes_of_state_ne h.state_ne) rfl
    rw [← afterSteps_succ] at hstate hrun
    exact ⟨n + 1, ending, by omega, hstate, (run_of_step hne h).trans hrun⟩

theorem remaining_le (s : Session) : s.remaining ≤ s.contestant.size + 2 := by
  unfold remaining
  split <;> omega

/-- **Only the judge makes a session fail.** A run or a step fails just when the target is awaited
and the judge's stream gives none; the contestant has then neither been read from nor written to,
and the target is still awaited. Once the target has been read, no step fails, and the session
ends after at most one step for each byte and each chunk that the contestant's stream has left, and
two more, whatever these chunks are and whatever the writer refuses. -/
theorem run_fails_iff_noTarget (s : Session) :
    (∀ e, ((∃ s', s.run = (.error e, s')) ↔
      s.state = .awaitTarget ∧ ∃ judge', NoTarget s.judge judge' e)) ∧
    (∀ e, ((∃ s', s.step = (.error e, s')) ↔
      s.state = .awaitTarget ∧ ∃ judge', NoTarget s.judge judge' e)) ∧
    (∀ e s', s.run = (.error e, s') ∨ s.step = (.error e, s') →
      s'.contestant = s.contestant ∧ s'.toContestant = s.toContestant ∧ s'.state = .awaitTarget) ∧
    ((∀ e judge', ¬ NoTarget s.judge judge' e) ∨ s.state ≠ .awaitTarget →
      (∀ n, (s.afterSteps n).step.1 = .ok ()) ∧
      ∃ n ending, n ≤ s.contestant.size + 2 ∧ (s.afterSteps n).state = .finished ending ∧
        s.run = (.ok ending, s.afterSteps n)) := by
  have hfails : ∀ e, ((∃ s', s.step = (.error e, s')) ↔
      s.state = .awaitTarget ∧ ∃ judge', NoTarget s.judge judge' e) := by
    intro e
    simp only [step_eq_error_iff]
    exact ⟨fun ⟨s', hstate, judge', hno, _⟩ => ⟨hstate, judge', hno⟩,
      fun ⟨hstate, judge', hno⟩ => ⟨_, hstate, judge', hno, rfl⟩⟩
  refine ⟨fun e => ?_, hfails, ?_, ?_⟩
  · simp only [run_eq_error_iff]
    exact hfails e
  · intro e s' h
    obtain ⟨hstate, judge', -, rfl⟩ := step_eq_error_iff.mp (h.elim run_eq_error_iff.mp id)
    exact ⟨rfl, rfl, hstate⟩
  · intro h
    -- the first step succeeds, and after it no target is awaited
    have hgoes : Goes s s.step.2 := by
      rcases hstep : s.step with ⟨e | _, s'⟩
      · obtain ⟨hstate, judge', hno⟩ := (hfails e).mp ⟨s', hstep⟩
        exact (h.elim (fun h => h e judge' hno) fun h => h hstate).elim
      · exact hstep
    constructor
    · intro n
      cases n with
      | zero => exact congrArg Prod.fst hgoes
      | succ n =>
        rw [afterSteps_succ]
        exact congrArg Prod.fst (goes_of_state_ne (state_afterSteps_ne hgoes.state_ne n))
    · obtain ⟨n, ending, hle, hfinished⟩ := exists_afterSteps_finished hgoes
      exact ⟨n, ending, hle.trans s.remaining_le, hfinished⟩

end Session

end Referee.Guessing
