import Referee.Proofs.Guessing.Round
import Referee.Proofs.Integers

/-!
# Tokens that make no integer

The grammar of the integers tells what a token is read as, unless the token begins with an integer
beyond 64 bits and goes on with something else: it is no integer then, and yet out of range. The
report of a session follows the reading (`integers_by_grammar`).
-/

namespace Referee

namespace Decimal

/-- The token is read by the grammar of the integers alone. -/
structure ReadByGrammar (token : Bytes) : Prop where
  value : ∀ v : Int64, readInteger token = .value v ↔ Denotes token v.toInt
  outOfRange : readInteger token = .outOfRange ↔ ∃ n, Denotes token n ∧ ¬ Fits n
  malformed : readInteger token = .malformed ↔ ∀ n, ¬ Denotes token n

section Grammar

variable {token : Bytes}

theorem readInteger_eq_malformed_iff : readInteger token = .malformed ↔
    (∀ v : Int64, ¬ Denotes token v.toInt) ∧ ¬ Overflows token := by
  simp only [← readInteger_eq_value_iff, ← readInteger_eq_outOfRange_iff]
  cases readInteger token with
  | value v => exact iff_of_false nofun fun h => h.1 v rfl
  | outOfRange => exact iff_of_false nofun fun h => h.2 rfl
  | malformed => exact iff_of_true rfl ⟨nofun, nofun⟩

/-- An integer is read as it should be, and so is a token that overflows only as one. -/
theorem readByGrammar_iff : ReadByGrammar token ↔ (Overflows token → ∃ n, Denotes token n) := by
  constructor
  · intro h hover
    obtain ⟨n, hn, -⟩ := h.outOfRange.mp (readInteger_eq_outOfRange_iff.mpr hover)
    exact ⟨n, hn⟩
  · intro h
    refine ⟨fun v => readInteger_eq_value_iff, ?_, ?_⟩
    · rw [readInteger_eq_outOfRange_iff]
      refine ⟨fun hover => ?_, fun ⟨n, hn, hbig⟩ => hn.overflows hbig⟩
      obtain ⟨n, hn⟩ := h hover
      refine ⟨n, hn, fun hfits => ?_⟩
      rw [← readInteger_eq_outOfRange_iff, hn.readInteger_eq hfits] at hover
      cases hover
    · rw [readInteger_eq_malformed_iff]
      constructor
      · rintro ⟨hvalue, hover⟩ n hn
        by_cases hfits : Fits n
        · exact hvalue _ (readInteger_eq_value_iff.mp (hn.readInteger_eq hfits))
        · exact hover (hn.overflows hfits)
      · intro hnone
        refine ⟨fun v => hnone v.toInt, fun hover => ?_⟩
        obtain ⟨n, hn⟩ := h hover
        exact hnone n hn

/-- Digits that leave the range, and a letter: no integer, but out of range. -/
theorem overflows_before_letter : let token := Bytes.ofString "9223372036854775808a"
    Overflows token ∧ ∀ n, ¬ Denotes token n := by
  intro token
  have hfront : ∀ b ∈ Bytes.ofString "9223372036854775808", isDigit b = true :=
    List.all_eq_true.mp (by decide)
  refine ⟨⟨by decide, _, _, by decide, .bare hfront (by decide), by decide⟩, fun n h => ?_⟩
  obtain ⟨negative, digits, hsplit, hdigits, -, -, -⟩ := h.split
  have hbare : splitSign token = (false, token) := by decide
  obtain ⟨-, rfl⟩ := Prod.mk.inj (hbare.symm.trans hsplit)
  exact absurd (hdigits 97 (by decide)) (by decide)

end Grammar

end Decimal

namespace Guessing.Session

open Decimal

section Refused

variable {s : Session} {target : Int64} {rounds : UInt32} {token : Bytes} {r : Reader}

/-- A token that does not denote an integer makes no guess. -/
theorem guess?_eq_none_of_not_denotes (settings : GuessingSettings)
    (h : ∀ n, ¬ Denotes token n) : settings.guess? token = none := by
  rw [Option.eq_none_iff_forall_ne_some]
  intro guess hguess
  have hread := (GuessingSettings.guess?_eq_some_iff.mp hguess).1
  exact h _ (readInteger_eq_value_iff.mp hread)

/-- How a token that denotes no integer ends the session. -/
theorem refusal_of_not_denotes (settings : GuessingSettings) (rounds : UInt32)
    (h : ∀ n, ¬ Denotes token n) :
    (Overflows token → refusal settings rounds token =
      .outOfRange rounds token settings.guessMin settings.guessMax) ∧
    (¬ Overflows token → refusal settings rounds token = .notAnInteger rounds token) := by
  constructor
  · intro hover
    refine refusal_of_ne_malformed ?_
    rw [readInteger_eq_outOfRange_iff.mpr hover]
    nofun
  · intro hunder
    exact refusal_of_malformed (readInteger_eq_malformed_iff.mpr ⟨fun v => h v.toInt, hunder⟩)

theorem step_of_refused (hstate : s.state = .playing target rounds)
    (hread : s.contestant.readToken contestantChannel = (.ok token, r))
    (hguess : s.settings.guess? token = none) :
    s.step = (.ok (), { s with contestant := r }.finish (refusal s.settings rounds token)) := by
  rw [step_of_playing hstate, playRound_of_refused hread hguess]

end Refused

/-- **The grammar decides what a token is read as, but for one kind of token.** A token reads as the
64-bit integer that it denotes, as out of range if it begins with an integer beyond 64 bits, and as
malformed otherwise. So the grammar alone decides unless a token that begins like that is no integer
itself; a token of this kind ends the session as a guess out of range, any other that is no integer
as what it is. -/
theorem integers_by_grammar (token : Bytes) :
    (∀ v : Int64, readInteger token = .value v ↔ Denotes token v.toInt) ∧
    (readInteger token = .outOfRange ↔ Overflows token) ∧
    (readInteger token = .malformed ↔ (∀ v : Int64, ¬ Denotes token v.toInt) ∧ ¬ Overflows token) ∧
    (ReadByGrammar token ↔ (Overflows token → ∃ n, Denotes token n)) ∧
    ∀ (s : Session) (target : Int64) (rounds : UInt32) (r : Reader),
      s.state = .playing target rounds →
      s.contestant.readToken contestantChannel = (.ok token, r) → (∀ n, ¬ Denotes token n) →
      ∃ ending, s.step.1 = .ok () ∧ s.step.2.state = .finished ending ∧
        s.step.2.toContestant = s.toContestant ∧
        ending.verdict = .wrongAnswer ∧ ending.rounds = rounds ∧
        (¬ Overflows token → ending.message =
          "expected an integer guess, found '" ++ Ending.shown token ++ "'") ∧
        (Overflows token → ending.message = "guess " ++ Ending.shown token ++ " out of range [" ++
          s.settings.guessMin.toInt.repr ++ ", " ++ s.settings.guessMax.toInt.repr ++ "]") := by
  refine ⟨fun v => readInteger_eq_value_iff, readInteger_eq_outOfRange_iff,
    readInteger_eq_malformed_iff, readByGrammar_iff, ?_⟩
  intro s target rounds r hstate hread hnone
  obtain ⟨hover, hunder⟩ := refusal_of_not_denotes s.settings rounds hnone
  have hguess := guess?_eq_none_of_not_denotes s.settings hnone
  rw [step_of_refused hstate hread hguess]
  refine ⟨_, rfl, rfl, rfl, refusal_verdict .., refusal_rounds .., fun h => ?_, fun h => ?_⟩
  · rw [hunder h]
    rfl
  · rw [hover h]
    rfl

/-- **A token that is no integer may be reported as a guess out of range.** -/
theorem run_outOfRange_before_letter :
    let token := Bytes.ofString "9223372036854775808a"
    let s := Session.new .standard (.ofTexts ["5"]) (.ofTexts ["9223372036854775808a\n"]) .working
    (∀ n, ¬ Denotes token n) ∧ readInteger token = .outOfRange ∧ ¬ ReadByGrammar token ∧
      s.run.1 = .ok ⟨.wrongAnswer, 0,
        "guess 9223372036854775808a out of range [1, 2000000000]"⟩ := by
  intro token s
  obtain ⟨hover, hnone⟩ := overflows_before_letter
  refine ⟨hnone, by decide, fun h => ?_, by decide +kernel⟩
  obtain ⟨n, hn⟩ := readByGrammar_iff.mp h hover
  exact hnone n hn

end Guessing.Session

end Referee
