import Referee.Proofs.Relay.Run
import Referee.Proofs.Validation

/-!
# The lines of the relay as tokens

A line is a command word, a space and a token, and has just these two as its tokens if the command
word is one. That holds for the command words of validated settings unless there is a vertical tab
in them: `run_framed_iff` states it for the lines of a run.
-/

namespace Referee.Relay

/-- The tokens of a line are its command word and its payload if the command word is a token. -/
theorem tokens_commandLine_iff {word : String} {payload : Bytes} (hp : IsToken payload) :
    tokens (commandLine word payload) = [Bytes.ofString word, payload] ↔
      IsToken (Bytes.ofString word) := by
  constructor
  · intro h
    have hmem : Bytes.ofString word ∈ tokens (commandLine word payload) := h ▸ List.mem_cons_self
    exact isToken_of_mem_tokens hmem
  · intro hw
    rw [commandLine, List.append_assoc, List.cons_append,
      tokens_append_token hw (atBreak_cons (by decide) _), tokens_blank (by decide),
      tokens_append_token hp (atBreak_cons (by decide) _), tokens_blank (by decide), tokens_nil]

theorem framed_iff {word : String} {payload : Bytes} (hw : isCommandWord word = true)
    (hp : IsToken payload) :
    tokens (commandLine word payload) = [Bytes.ofString word, payload] ↔ '\x0b' ∉ word.toList :=
  (tokens_commandLine_iff hp).trans (isToken_ofString_iff hw)

/-- **A line has two tokens unless its command word holds a vertical tab.** A run with validated
settings refuses its payload and does nothing, or it sends a line to stage A, and another to stage B
once stage A has replied. Each has its command word and what it carries as its tokens exactly if
there is no vertical tab in the command word. -/
theorem run_framed_iff {settings : Settings} (hs : settings.validate = .ok settings)
    {r r' : Relay} (hr : r.commands = settings.relay) {payload : Bytes}
    {result : Except Failure Bytes} (h : r.run payload = (result, r')) :
    let encode := settings.relay.encodeCommand
    let decode := settings.relay.decodeCommand
    ¬ IsToken payload ∧ result = .error (badPayload payload) ∧ r' = r ∨
      r'.ends.toA = (r.ends.toA.sendCommand stageA encode payload).2 ∧
      (tokens (commandLine encode payload) = [Bytes.ofString encode, payload] ↔
        '\x0b' ∉ encode.toList) ∧
      (r'.ends.toB = r.ends.toB ∨ ∃ reply,
        (r.ends.fromA.readToken stageA).1 = .ok reply ∧
        r'.ends.toB = (r.ends.toB.sendCommand stageB decode reply).2 ∧
        (tokens (commandLine decode reply) = [Bytes.ofString decode, reply] ↔
          '\x0b' ∉ decode.toList)) := by
  obtain ⟨-, -, -, -, hencode, hdecode⟩ :=
    Settings.problem?_eq_none_iff.mp (Settings.validate_eq_ok_iff.mp hs).1
  rw [← hr] at hencode hdecode ⊢
  intro encode decode
  cases run_eq_iff.mp h with
  | refused hp => exact .inl ⟨hp, rfl, rfl⟩
  | failedA hp ha => exact .inr ⟨ha.writer_eq, framed_iff hencode hp, .inl rfl⟩
  | failedB hp ha hb | passed hp ha hb =>
    have hread := ha.of_ok.2
    refine .inr ⟨ha.writer_eq, framed_iff hencode hp, .inr ⟨_, ?_, hb.writer_eq, ?_⟩⟩
    · rw [hread]
    · exact framed_iff hdecode (Reader.isToken_of_readToken hread)

/-- The standard command words are framed. -/
theorem run_framed_iff_standard :
    let line := commandLine "DECODE" (Bytes.ofString "ab")
    let r : Relay := ⟨.standard, ⟨.working, .ofTexts ["a", "b\n"], .working, []⟩, []⟩
    let r' := (r.run (Bytes.ofString "x")).2
    r'.ends.toB = (r.ends.toB.sendCommand stageB "DECODE" (Bytes.ofString "ab")).2 ∧
      tokens line = [Bytes.ofString "DECODE", Bytes.ofString "ab"] := by
  intro line r r'
  have hs : Settings.standard.validate = .ok Settings.standard := rfl
  rcases run_framed_iff hs rfl (rfl : r.run (Bytes.ofString "x") = (_, r')) with ⟨hp, -, -⟩ | ⟨-, -, hB⟩
  · exact absurd (by decide) hp
  · rcases hB with hsame | ⟨reply, hread, hsent, hframe⟩
    · exact absurd (congrArg Writer.written hsame) (by decide)
    · obtain rfl : Bytes.ofString "ab" = reply := Except.ok.inj hread
      exact ⟨hsent, hframe.mpr (by decide)⟩

/-- **A validated command word may fall apart.** With a vertical tab in it the line has three tokens. -/
theorem run_splits_at_vertical_tab :
    let text := "\x7b\"relay\": \x7b\"encode_command\": \"EN\\u000bCODE\"\x7d\x7d"
    let settings : Settings := { Settings.standard with relay := ⟨"EN\x0bCODE", "DECODE"⟩ }
    let r : Relay := ⟨settings.relay, ⟨.working, .ofTexts ["a\n"], .working, .ofTexts ["b\n"]⟩, []⟩
    Settings.ofText text = .ok settings ∧ settings.validate = .ok settings ∧
      (r.run (Bytes.ofString "x")).1 = .ok (Bytes.ofString "b") ∧
      (r.run (Bytes.ofString "x")).2.ends.toA.written = Bytes.ofString "EN\x0bCODE x\n" ∧
      tokens (Bytes.ofString "EN\x0bCODE x\n") = ["EN", "CODE", "x"].map Bytes.ofString := by
  intro text settings r
  have hread : Settings.ofText text = .ok settings := by decide +kernel
  refine ⟨hread, Settings.validate_of_ofText hread, ?_⟩
  decide

end Referee.Relay
