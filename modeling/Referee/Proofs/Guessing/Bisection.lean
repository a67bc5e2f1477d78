import Mathlib.Algebra.Order.Ring.Int
import Mathlib.Tactic.Positivity
import Mathlib.Tactic.Ring
import Referee.Proofs.Guessing.Lockstep
import Referee.Proofs.Guessing.Run
import Referee.Proofs.Integers
import Referee.Proofs.Lines

/-!
# The game against bisection

A `Bisector` keeps the interval in which the target can still be, guesses its middle and hears the
answer. In a `Game` the two sides take turns: the contestant sends a guess once it has heard the
answer to the one before, and the session answers it. After `k` turns the game is won or the
interval is at most a `2 ^ k`-th of the range (`Narrowed.turn`), so a range of fewer than
`2 ^ roundLimit` numbers is searched in time (`turns_accepted`).
-/

namespace Referee

/-! ## The contestant -/

/-- The interval in which the target can still be. -/
structure Bisector where
  lo : Int
  hi : Int
  deriving DecidableEq, Repr

namespace Bisector

def start (settings : GuessingSettings) : Bisector :=
  ⟨settings.guessMin.toInt, settings.guessMax.toInt⟩

def guess (b : Bisector) : Int := b.lo + (b.hi - b.lo) / 2

/-- What a line leaves of the interval. Any line that is neither of the two makes the contestant
stop. -/
def hear (b : Bisector) (line : Bytes) : Option Bisector :=
  if line = Bytes.ofString "FLOATS" then some { b with hi := b.guess - 1 }
  else if line = Bytes.ofString "SINKS" then some { b with lo := b.guess + 1 }
  else none

/-- The interval after the lines heard, or `none` once the contestant has stopped. -/
def hearAll (b : Bisector) (heard : Bytes) : Option Bisector := (lines heard).foldlM hear b

/-- The target is in the interval, which has been halved `k` times. -/
structure Halved (b : Bisector) (settings : GuessingSettings) (target : Int64) (k : Nat) : Prop where
  lo_le : b.lo ≤ target.toInt
  le_hi : target.toInt ≤ b.hi
  min_le : settings.guessMin.toInt ≤ b.lo
  le_max : b.hi ≤ settings.guessMax.toInt
  size_le : (b.hi - b.lo + 1) * 2 ^ k ≤ settings.guessMax.toInt - settings.guessMin.toInt + 1

section Halved

variable {b : Bisector} {settings : GuessingSettings} {target guess : Int64} {k : Nat}

theorem halved_start (hlo : settings.guessMin ≤ target) (hhi : target ≤ settings.guessMax) :
    (start settings).Halved settings target 0 where
  lo_le := Int64.le_iff_toInt_le.mp hlo
  le_hi := Int64.le_iff_toInt_le.mp hhi
  min_le := le_rfl
  le_max := le_rfl
  size_le := (Int.mul_one _).le

/-- A range of fewer than `2 ^ n` numbers is not halved `n` times. -/
theorem Halved.lt {n : Nat} (h : b.Halved settings target k)
    (hsize : settings.guessMax.toInt - settings.guessMin.toInt + 1 < 2 ^ n) : k < n := by
  have hne : 1 ≤ b.hi - b.lo + 1 := by
    have hlo := h.lo_le
    have hhi := h.le_hi
    omega
  have hpow : (2 : Int) ^ k < 2 ^ n := calc
    (2 : Int) ^ k = 1 * 2 ^ k := (Int.one_mul _).symm
    _ ≤ (b.hi - b.lo + 1) * 2 ^ k := Int.mul_le_mul_of_nonneg_right hne (by positivity)
    _ ≤ settings.guessMax.toInt - settings.guessMin.toInt + 1 := h.size_le
    _ < 2 ^ n := hsize
  exact (pow_lt_pow_iff_right₀ (by decide)).mp hpow

theorem Halved.exists_guess (h : b.Halved settings target k) : ∃ guess : Int64,
    guess.toInt = b.guess ∧ settings.guessMin ≤ guess ∧ guess ≤ settings.guessMax := by
  obtain ⟨hlo, hhi, hmin, hmax, -⟩ := h
  have hle := settings.guessMin.le_toInt
  have hlt := settings.guessMax.toInt_lt
  have hguess : (Int64.ofInt b.guess).toInt = b.guess := by
    apply Int64.toInt_ofInt_of_le
    · rw [guess]
      omega
    · rw [guess]
      omega
  refine ⟨.ofInt b.guess, hguess, ?_, ?_⟩
  · rw [Int64.le_iff_toInt_le, hguess, guess]
    omega
  · rw [Int64.le_iff_toInt_le, hguess, guess]
    omega

/-- A half of an interval that is at most half as long counts once more. -/
theorem Halved.size_succ {b' : Bisector} (h : b.Halved settings target k)
    (hhalf : 2 * (b'.hi - b'.lo + 1) ≤ b.hi - b.lo + 1) :
    (b'.hi - b'.lo + 1) * 2 ^ (k + 1) ≤ settings.guessMax.toInt - settings.guessMin.toInt + 1 := calc
  (b'.hi - b'.lo + 1) * 2 ^ (k + 1) = 2 * (b'.hi - b'.lo + 1) * 2 ^ k := by ring
  _ ≤ (b.hi - b.lo + 1) * 2 ^ k := Int.mul_le_mul_of_nonneg_right hhalf (by positivity)
  _ ≤ settings.guessMax.toInt - settings.guessMin.toInt + 1 := h.size_le

/-- **The answer to a miss leaves half of the interval**, and the target in it. -/
theorem Halved.hear (h : b.Halved settings target k) (hguess : guess.toInt = b.guess)
    (hne : guess ≠ target) : ∃ b', b.hear (Bytes.ofString (Guessing.signalWord target guess)) =
      some b' ∧ b'.Halved settings target (k + 1) := by
  obtain ⟨hlo, hhi, hmin, hmax, -⟩ := id h
  have hmid : b.guess = b.lo + (b.hi - b.lo) / 2 := rfl
  rw [Guessing.signalWord, if_neg hne]
  by_cases hlt : target < guess
  · rw [if_pos hlt]
    rw [Int64.lt_iff_toInt_lt, hguess] at hlt
    refine ⟨_, if_pos rfl, hlo, Int.le_sub_one_of_lt hlt, hmin, ?_, h.size_succ ?_⟩
    all_goals
      simp only
      omega
  · have hgt : b.guess < target.toInt := by
      have hne' : guess.toInt ≠ target.toInt := fun e => hne (Int64.toInt_inj.mp e)
      rw [Int64.lt_iff_toInt_lt] at hlt
      omega
    rw [if_neg hlt]
    refine ⟨_, (if_neg (by decide)).trans (if_pos rfl), hgt, hhi, ?_, hmax, h.size_succ ?_⟩
    all_goals
      simp only
      omega

end Halved

theorem hear_ok (b : Bisector) : b.hear (Bytes.ofString "OK") = none :=
  (if_neg (by decide)).trans (if_neg (by decide))

end Bisector

namespace Guessing

/-! ## What is said on either side -/

/-- The line that makes a guess. -/
def guessLine (guess : Int64) : Bytes := Writer.lineBytes guess.toInt.repr

theorem guessLine_append (guess : Int64) (bs : Bytes) :
    guessLine guess ++ bs = Bytes.ofString guess.toInt.repr ++ (10 :: bs) := by
  rw [guessLine, Writer.lineBytes, List.append_assoc, List.singleton_append]

/-- The tokens of the guesses are their decimal forms. -/
theorem tokens_guessLines (guesses : List Int64) : tokens (guesses.flatMap guessLine) =
    guesses.map fun guess => Bytes.ofString guess.toInt.repr := by
  induction guesses with
  | nil => rfl
  | cons guess guesses ih =>
    have hblank : isBlank 10 = true := rfl
    rw [List.flatMap_cons, guessLine_append, tokens_append_token (Decimal.isToken_repr _)
      (atBreak_cons hblank _), tokens_blank hblank, ih, List.map_cons]

theorem unbroken_signalWord (target guess : Int64) :
    Unbroken (Bytes.ofString (signalWord target guess)) := by
  unfold Unbroken signalWord
  split
  · decide +kernel
  · split <;> decide +kernel

/-- The lines that answer the guesses hold the words. -/
theorem lines_signalLines (target : Int64) (guesses : List Int64) :
    lines (signalLines target guesses) =
      guesses.map fun guess => Bytes.ofString (signalWord target guess) := by
  have hline : signalLine target = fun guess => Bytes.ofString (signalWord target guess) ++ [10] :=
    funext fun guess => (lineBytes_signalWord target guess).symm
  rw [signalLines, hline]
  exact lines_flatMap fun guess _ => unbroken_signalWord target guess

theorem hearAll_signalLines_snoc (b : Bisector) (target guess : Int64) (guesses : List Int64) :
    b.hearAll (signalLines target (guesses ++ [guess])) =
      (b.hearAll (signalLines target guesses)).bind
        (·.hear (Bytes.ofString (signalWord target guess))) := by
  rw [Bisector.hearAll, Bisector.hearAll, lines_signalLines, lines_signalLines, List.map_append,
    List.foldlM_append]
  refine bind_congr fun b => ?_
  exact bind_pure _

/-! ## The game -/

/-- A session and everything that its contestant has sent. -/
structure Game where
  session : Session
  sent : Bytes

namespace Game

/-- The session has read its target and waits for the first guess. -/
def opened (settings : GuessingSettings) (judge : Reader) (w : Writer) : Game :=
  ⟨(Session.new settings judge [] w).step.2, []⟩

/-- The contestant, by what has been passed on to it. -/
def contestant (g : Game) : Option Bisector :=
  (Bisector.start g.session.settings).hearAll
    (g.session.toContestant.written.take g.session.toContestant.flushed)

/-- The contestant sends its next guess, if it has not stopped, and the session makes a step. -/
def turn (deliver : Bytes → Reader) (g : Game) : Game :=
  match g.contestant with
  | none => g
  | some b =>
    let line := Writer.lineBytes b.guess.repr
    ⟨(g.session.andThen (deliver line)).step.2, g.sent ++ line⟩

/-- The game after `n` turns. -/
def turns (deliver : Nat → Bytes → Reader) (g : Game) : Nat → Game
  | 0 => g
  | n + 1 => (g.turns deliver n).turn (deliver n)

/-- The way from the contestant works: what is sent arrives, cut into buffers in any way. -/
def Delivers (deliver : Bytes → Reader) : Prop :=
  (∀ bs, (deliver bs).Steady) ∧ ∀ bs, (deliver bs).bytes = bs

/-- The guesses have all missed, and the interval has been halved with each of them. -/
structure Narrowed (settings : GuessingSettings) (target : Int64) (guesses : List Int64) (g : Game) :
    Prop where
  settings_eq : g.session.settings = settings
  ready : ∃ rounds : UInt32, rounds.toNat = guesses.length ∧ g.session.Ready target rounds []
  written : g.session.toContestant.written = signalLines target guesses
  passedOn : g.session.toContestant.written.length ≤ g.session.toContestant.flushed
  halved : ∃ b, (Bisector.start settings).hearAll (signalLines target guesses) = some b ∧
    b.Halved settings target guesses.length
  sent : g.sent = guesses.flatMap guessLine
  missed : ∀ guess ∈ guesses,
    settings.guessMin ≤ guess ∧ guess ≤ settings.guessMax ∧ guess ≠ target

/-- The guesses have all missed, and the one after them has hit. -/
structure Won (settings : GuessingSettings) (target : Int64) (guesses : List Int64) (g : Game) :
    Prop where
  state : ∃ rounds : UInt32, rounds.toNat = guesses.length + 1 ∧
    g.session.state = .finished (.accepted rounds)
  limit : guesses.length < settings.roundLimit.toNat
  stopped : g.contestant = none
  sent : g.sent = (guesses ++ [target]).flatMap guessLine
  missed : ∀ guess ∈ guesses,
    settings.guessMin ≤ guess ∧ guess ≤ settings.guessMax ∧ guess ≠ target

section Turn

variable {settings : GuessingSettings} {target guess : Int64} {guesses : List Int64} {g : Game}

theorem guess?_repr (hmin : settings.guessMin ≤ guess) (hmax : guess ≤ settings.guessMax) :
    settings.guess? (Bytes.ofString guess.toInt.repr) = some guess :=
  GuessingSettings.guess?_eq_some_iff.mpr ⟨Decimal.readInteger_repr guess, hmin, hmax⟩

theorem contestant_of_passedOn
    (h : g.session.toContestant.written.length ≤ g.session.toContestant.flushed) :
    g.contestant = (Bisector.start g.session.settings).hearAll g.session.toContestant.written := by
  rw [contestant, List.take_of_length_le h]

/-- A guess that has been delivered is the next token. -/
theorem ready_andThen {s : Session} {rounds : UInt32} {deliver : Bytes → Reader}
    (h : s.Ready target rounds []) (hdeliver : Delivers deliver) (guess : Int64) :
    (s.andThen (deliver (guessLine guess))).Ready target rounds
      [Bytes.ofString guess.toInt.repr] := by
  obtain ⟨hsteady, hbytes⟩ := hdeliver
  have htokens := tokens_guessLines [guess]
  rw [List.flatMap_singleton] at htokens
  refine ⟨h.state, ?_, ?_, ?_, h.reliable⟩
  · exact List.forall_mem_append.mpr ⟨h.steady, hsteady _⟩
  · have hblank : ∀ b ∈ s.contestant.bytes, isBlank b = true := by
      rcases blank_or_token s.contestant.bytes with hw | ⟨w, t, rest, hsplit, hw, ht, hb⟩
      · exact hw
      · have hnone := h.tokens
        rw [hsplit, tokens_append_blanks hw, tokens_append_token ht hb] at hnone
        cases hnone
    have happend : (s.andThen (deliver (guessLine guess))).contestant.bytes =
        s.contestant.bytes ++ guessLine guess :=
      List.flatMap_append.trans (congrArg _ (hbytes _))
    rw [happend, tokens_append_blanks hblank]
    exact htokens
  · intro t ht
    rw [List.mem_singleton.mp ht]
    exact (Decimal.length_repr_le guess).trans (by decide)

theorem turn_of_guess {b : Bisector} (deliver : Bytes → Reader) (hb : g.contestant = some b)
    (hguess : guess.toInt = b.guess) : g.turn deliver =
      ⟨(g.session.andThen (deliver (guessLine guess))).step.2, g.sent ++ guessLine guess⟩ := by
  rw [turn, hb, guessLine, hguess]

/-- **A turn.** The guess hits, or it misses and the answer halves the interval. -/
theorem Narrowed.turn (h : Narrowed settings target guesses g) {deliver : Bytes → Reader}
    (hdeliver : Delivers deliver)
    (hsize : settings.guessMax.toInt - settings.guessMin.toInt + 1 <
      2 ^ settings.roundLimit.toNat) :
    Won settings target guesses (g.turn deliver) ∨
      ∃ guess, Narrowed settings target (guesses ++ [guess]) (g.turn deliver) := by
  obtain ⟨rounds, hcount, hready⟩ := h.ready
  obtain ⟨b, hb, hhalved⟩ := h.halved
  obtain ⟨guess, hguess, hmin, hmax⟩ := hhalved.exists_guess
  have hlast := hhalved.lt hsize
  have hsucc : (rounds + 1).toNat = guesses.length + 1 := by
    have hlt := settings.roundLimit.toNat_lt_size
    rw [toNat_succ (by omega), hcount]
  have hcontestant : g.contestant = some b := by
    rw [contestant_of_passedOn h.passedOn, h.settings_eq, h.written, hb]
  have hready' := ready_andThen hready hdeliver guess
  have hg : (g.session.andThen (deliver (guessLine guess))).settings.guess?
      (Bytes.ofString guess.toInt.repr) = some guess :=
    guess?_repr (h.settings_eq ▸ hmin) (h.settings_eq ▸ hmax)
  obtain ⟨s', hplay, hsettings, hsteady, htokens, hreliable, hflushed, hwritten⟩ :=
    hready'.playRound_answered hg
  replace hsettings : s'.settings = settings := hsettings.trans h.settings_eq
  replace hwritten : s'.toContestant.written = signalLines target (guesses ++ [guess]) := by
    rw [signalLines_snoc, ← h.written]
    exact hwritten
  have hunder : ¬ s'.settings.roundLimit < rounds + 1 := by
    rw [hsettings, UInt32.lt_iff_toNat_lt]
    omega
  have hsent : g.sent ++ guessLine guess = (guesses ++ [guess]).flatMap guessLine := by
    rw [h.sent, List.flatMap_append, List.flatMap_singleton]
  have hheard := hearAll_signalLines_snoc (Bisector.start settings) target guess guesses
  rw [hb, Option.bind_some] at hheard
  rw [turn_of_guess deliver hcontestant hguess, Session.step_of_playing hready'.state, hplay,
    Session.settle, if_neg hunder, hsent]
  by_cases hhit : guess = target
  · subst hhit
    rw [if_pos rfl]
    refine .inl ⟨⟨rounds + 1, hsucc, rfl⟩, hlast, ?_, rfl, h.missed⟩
    rw [contestant_of_passedOn hflushed.ge]
    change (Bisector.start s'.settings).hearAll s'.toContestant.written = none
    rw [hsettings, hwritten, hheard, signalWord_self]
    exact b.hear_ok
  · obtain ⟨b', hb', hhalved'⟩ := hhalved.hear hguess hhit
    rw [if_neg hhit]
    refine .inr ⟨guess, hsettings, ⟨rounds + 1, ?_, rfl, hsteady, htokens, List.forall_mem_nil _, hreliable⟩,
      hwritten, hflushed.ge, ⟨b', hheard.trans hb', ?_⟩, rfl, ?_⟩
    · rw [hsucc, List.length_append, List.length_singleton]
    · rwa [List.length_append, List.length_singleton]
    · exact List.forall_mem_append.mpr
        ⟨h.missed, List.forall_mem_singleton.mpr ⟨hmin, hmax, hhit⟩⟩

/-- Turn after turn, until a guess hits. -/
theorem Narrowed.turns (h : Narrowed settings target [] g) {deliver : Nat → Bytes → Reader}
    (hdeliver : ∀ n, Delivers (deliver n))
    (hsize : settings.guessMax.toInt - settings.guessMin.toInt + 1 <
      2 ^ settings.roundLimit.toNat) (k : Nat) :
    (∃ guesses, Won settings target guesses (g.turns deliver (guesses.length + 1))) ∨
      ∃ guesses, guesses.length = k ∧ Narrowed settings target guesses (g.turns deliver k) := by
  induction k with
  | zero => exact .inr ⟨[], rfl, h⟩
  | succ k ih =>
    obtain hwon | ⟨guesses, rfl, hnarrowed⟩ := ih
    · exact .inl hwon
    obtain hwon | ⟨guess, hnext⟩ := hnarrowed.turn (hdeliver _) hsize
    · exact .inl ⟨guesses, hwon⟩
    · exact .inr ⟨guesses ++ [guess], by rw [List.length_append, List.length_singleton], hnext⟩

end Turn

/-! ## The run over what has been sent -/

/-- A missed guess does not stop the game. -/
theorem not_stops {settings : GuessingSettings} {target guess : Int64} {i : Nat}
    (hmin : settings.guessMin ≤ guess) (hmax : guess ≤ settings.guessMax) (hne : guess ≠ target)
    (hi : i ≤ settings.roundLimit.toNat) :
    ¬ settings.Stops target i (Bytes.ofString guess.toInt.repr) := by
  rw [GuessingSettings.Stops, guess?_repr hmin hmax, Option.some.injEq]
  rintro (hnone | hlast | hhit)
  · cases hnone
  · omega
  · exact hne hhit

/-- **A session that is given everything at once comes to the same end.** -/
theorem Won.run_accepted {settings : GuessingSettings} {judge contestant : Reader} {w : Writer}
    {token : Bytes} {rest : List Bytes} {target : Int64} {guesses : List Int64} {g : Game}
    (h : Won settings target guesses g)
    (hjudge : judge.Steady) (htoken : tokens judge.bytes = token :: rest)
    (hshort : token.length ≤ maxTokenLength) (htarget : Decimal.readInteger token = .value target)
    (hmin : settings.guessMin ≤ target) (hmax : target ≤ settings.guessMax) (hw : w.Reliable)
    (hcontestant : contestant.Steady) (hbytes : contestant.bytes = g.sent) {rounds : UInt32}
    (hrounds : rounds.toNat = guesses.length + 1) :
    (Session.new settings judge contestant w).run.1 = .ok (.accepted rounds) := by
  have htokens : tokens contestant.bytes =
      (guesses ++ [target]).map fun guess => Bytes.ofString guess.toInt.repr := by
    rw [hbytes, h.sent, tokens_guessLines]
  have hshorts : ∀ t ∈ tokens contestant.bytes, t.length ≤ maxTokenLength := by
    rw [htokens]
    intro t ht
    obtain ⟨guess, -, rfl⟩ := List.mem_map.mp ht
    exact (Decimal.length_repr_le guess).trans (by decide)
  obtain ⟨s, hrun, hready, hsettings, -⟩ := Session.run_opened settings hjudge htoken hshort htarget
    hcontestant hshorts hw
  rw [htokens] at hready
  subst hsettings
  have hlimit := s.settings.roundLimit.toNat_lt_size
  have hlast := h.limit
  have hcount : ((guesses ++ [target]).map fun guess => Bytes.ofString guess.toInt.repr).length =
      guesses.length + 1 := by
    rw [List.length_map, List.length_append, List.length_singleton]
  have hhit : ((guesses ++ [target]).map fun guess => Bytes.ofString guess.toInt.repr)[guesses.length]? =
      some (Bytes.ofString target.toInt.repr) := by
    rw [List.getElem?_map, List.getElem?_concat_length, Option.map_some]
  have hleast : ∀ j t, j < guesses.length →
      ((guesses ++ [target]).map fun guess => Bytes.ofString guess.toInt.repr)[j]? = some t →
      ¬ s.settings.Stops target (j + 1) t := by
    intro j t hj ht
    rw [List.getElem?_map, List.getElem?_append_left hj] at ht
    obtain ⟨guess, hguess, rfl⟩ := Option.map_eq_some_iff.mp ht
    obtain ⟨hlo, hhi, hne⟩ := h.missed guess (List.mem_of_getElem? hguess)
    exact not_stops hlo hhi hne (by omega)
  obtain ⟨ending, s', -, hend, hverdict, hmade, hmessage, -⟩ :=
    hready.endsWith_accepted hhit hleast (guess?_repr hmin hmax) (by omega) (by omega)
  rw [hrun, hend]
  obtain ⟨verdict, rounds', message⟩ := ending
  simp only at hverdict hmade hmessage
  obtain rfl : rounds' = rounds := UInt32.toNat_inj.mp (hmade.trans hrounds.symm)
  rw [Ending.accepted, hrounds, hverdict, hmessage]

/-! ## The game is won -/

section Opened

variable {settings : GuessingSettings} {judge : Reader} {w : Writer} {token : Bytes}
  {rest : List Bytes} {target : Int64}

theorem narrowed_opened (hjudge : judge.Steady) (htoken : tokens judge.bytes = token :: rest)
    (hshort : token.length ≤ maxTokenLength) (htarget : Decimal.readInteger token = .value target)
    (hw : w.Reliable) (hfresh : w.written = [])
    (hmin : settings.guessMin ≤ target) (hmax : target ≤ settings.guessMax) :
    Narrowed settings target [] (opened settings judge w) := by
  obtain ⟨s, hstep, hready, hsettings, hwriter, -⟩ := Session.ready_opened settings hjudge htoken
    hshort htarget Reader.steady_nil nofun hw
  have hnone : w.written.length ≤ w.flushed := by
    rw [hfresh]
    exact Nat.zero_le _
  rw [← hwriter] at hfresh hnone
  rw [opened, hstep]
  exact ⟨hsettings, ⟨0, rfl, hready⟩, hfresh, hnone, ⟨_, rfl, Bisector.halved_start hmin hmax⟩, rfl,
    nofun⟩

/-- **Bisection wins.** Let the target lie in a range of fewer than `2 ^ roundLimit` numbers, and let
nothing fail on the way from one side to the other. Then the game ends with the target found after
at most `roundLimit` guesses, the contestant hears that and stops, and a session that is given what
it has sent in any buffers accepts after as many rounds. -/
theorem turns_accepted (hjudge : judge.Steady) (htoken : tokens judge.bytes = token :: rest)
    (hshort : token.length ≤ maxTokenLength) (htarget : Decimal.readInteger token = .value target)
    (hw : w.Reliable) (hfresh : w.written = [])
    (hmin : settings.guessMin ≤ target) (hmax : target ≤ settings.guessMax)
    (hsize : settings.guessMax.toInt - settings.guessMin.toInt + 1 < 2 ^ settings.roundLimit.toNat)
    {deliver : Nat → Bytes → Reader} (hdeliver : ∀ n, Delivers (deliver n)) :
    ∃ rounds : UInt32, rounds ≤ settings.roundLimit ∧
      let g := (opened settings judge w).turns deliver rounds.toNat
      g.session.state = .finished (.accepted rounds) ∧ g.contestant = none ∧
      ∀ contestant : Reader, contestant.Steady → contestant.bytes = g.sent →
        (Session.new settings judge contestant w).run.1 = .ok (.accepted rounds) := by
  have hstart := narrowed_opened hjudge htoken hshort htarget hw hfresh hmin hmax
  obtain ⟨guesses, hwon⟩ | ⟨guesses, hlength, hnarrowed⟩ :=
    hstart.turns hdeliver hsize settings.roundLimit.toNat
  · obtain ⟨rounds, hrounds, hstate⟩ := hwon.state
    have hlast := hwon.limit
    refine ⟨rounds, UInt32.le_iff_toNat_le.mpr (by omega), ?_⟩
    rw [hrounds]
    refine ⟨hstate, hwon.stopped, fun contestant hcontestant hbytes => ?_⟩
    exact hwon.run_accepted hjudge htoken hshort htarget hmin hmax hw hcontestant hbytes hrounds
  · -- the range cannot be halved as often as that
    obtain ⟨b, -, hhalved⟩ := hnarrowed.halved
    exact absurd (hlength ▸ hhalved.lt hsize) (Nat.lt_irrefl _)

end Opened

/-- The default range and limit. The first guess comes in buffers of one byte, the second in buffers
of two, and so on. -/
theorem turns_accepted_standard :
    ∃ rounds : UInt32, rounds ≤ GuessingSettings.standard.roundLimit ∧
      let deliver : Nat → Bytes → Reader := fun n => Reader.buffered (n + 1)
      let g := (opened .standard (.ofTexts ["1000000", "007\n"]) .working).turns deliver rounds.toNat
      g.session.state = .finished (.accepted rounds) ∧ g.contestant = none ∧
      ∀ contestant : Reader, contestant.Steady → contestant.bytes = g.sent →
        (Session.new .standard (.ofTexts ["1000000", "007\n"]) contestant .working).run.1 =
          .ok (.accepted rounds) := by
  have hjudge : (Reader.ofTexts ["1000000", "007\n"]).Steady := Reader.steady_ofTexts (by decide)
  have htoken : tokens (Reader.ofTexts ["1000000", "007\n"]).bytes =
      [Bytes.ofString "1000000007"] := by decide
  have htarget : Decimal.readInteger (Bytes.ofString "1000000007") = .value 1000000007 := by decide
  have hdeliver : ∀ n, Delivers (Reader.buffered (n + 1)) := fun n =>
    ⟨Reader.steady_buffered (n + 1), Reader.bytes_buffered (Nat.succ_ne_zero n)⟩
  exact turns_accepted hjudge htoken (by decide) htarget ⟨rfl, rfl⟩ rfl (by decide) (by decide)
    (by decide) hdeliver

end Game

end Guessing

end Referee
