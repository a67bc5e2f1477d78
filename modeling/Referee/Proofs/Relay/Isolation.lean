import Referee.Proofs.Faults
import Referee.Proofs.Relay.Run

/-!
# What a failed run leaves behind

An exchange that fails has sent a beginning of its line, and has read nothing unless the whole line
was passed on (`Fails`). A run that fails at stage A does not touch stage B; one that fails at stage
B has had its one token from stage A. Either records that the stage has gone away, if it has, and
nothing else: `run_isolates` puts these together over any streams.
-/

namespace Referee.Relay

/-- What a failed exchange does to the streams of its stage. -/
structure Fails (channel : String) (line : Bytes) (w : Writer) (r : Reader) (e : Failure)
    (w' : Writer) (r' : Reader) : Prop where
  sent : ∃ p, p <+: line ∧ w'.written = w.written ++ p
  unread : ¬ (w'.written = w.written ++ line ∧ w'.Flushed) → r' = r
  cause : ∃ b : Break, e = b.failure channel ∧
    (e.isPeerClosed = true ↔ b = .ended ∨ ∃ f : Fault, b = .fault f ∧
      (f.kind = .brokenPipe ∨ f.kind = .unexpectedEof ∨ f.kind = .connectionReset)) ∧
    ((∃ f, b = .fault f ∧ w.writeFlushing [line] = (.error f, w') ∧ r' = r) ∨
      (w.writeFlushing [line] = (.ok (), w') ∧ Reader.Breaks [] r b r'))

/-- What is recorded of a failure at a stage. -/
structure Records (channel : String) (e : Failure) (trail trail' : List Audit.Entry) : Prop where
  closed : e.isPeerClosed = true →
    trail' = trail ++ [⟨.peerClosed, .warning, e.message, some channel, none, none⟩]
  silent : e.isPeerClosed = false → trail' = trail

/-- A run that fails at stage A. -/
structure FailsAtA (r : Relay) (payload : Bytes) (e : Failure) (r' : Relay) : Prop where
  exchange : Fails stageA (commandLine r.commands.encodeCommand payload) r.ends.toA r.ends.fromA e
    r'.ends.toA r'.ends.fromA
  toB : r'.ends.toB = r.ends.toB
  fromB : r'.ends.fromB = r.ends.fromB
  trail : Records stageA e r.trail r'.trail

/-- A run that fails at stage B with the token that stage A has sent. -/
structure FailsAtB (r : Relay) (payload token : Bytes) (e : Failure) (r' : Relay) : Prop where
  sentA : r'.ends.toA.written = r.ends.toA.written ++ commandLine r.commands.encodeCommand payload
  flushedA : r'.ends.toA.Flushed
  readA : r.ends.fromA.readToken stageA = (.ok token, r'.ends.fromA)
  isToken : IsToken token
  takenA : ∃ blanks, (∀ b ∈ blanks, isBlank b = true) ∧
    r.ends.fromA.bytes = blanks ++ token ++ r'.ends.fromA.bytes
  exchange : Fails stageB (commandLine r.commands.decodeCommand token) r.ends.toB r.ends.fromB e
    r'.ends.toB r'.ends.fromB
  trail : Records stageB e r.trail r'.trail

section Exchange

variable {channel command : String} {payload : Bytes} {w w' : Writer} {r r' : Reader} {e : Failure}

theorem Exchange.fails (h : Exchange channel command payload w r (.error e) w' r') :
    Fails channel (commandLine command payload) w r e w' r' := by
  obtain ⟨p, hp, hwritten, hall⟩ := w.sendCommand_accepts channel command payload
  rw [← h.writer_eq] at hwritten
  cases h with
  | unsent hsend =>
    obtain ⟨f, he, hwrite⟩ := Writer.send_eq_error_iff.mp hsend
    subst he
    exact ⟨⟨p, hp, hwritten⟩, fun _ => rfl,
      .fault f, rfl, Break.isPeerClosed_failure_iff, .inl ⟨f, rfl, hwrite, rfl⟩⟩
  | sent hsend hread =>
    rw [hsend] at hall
    obtain ⟨rfl, hflushed⟩ := hall rfl
    obtain ⟨b, he, hbreaks⟩ := Reader.readToken_eq_error_iff.mp hread
    subst he
    exact ⟨⟨_, hp, hwritten⟩, fun hno => absurd ⟨hwritten, hflushed⟩ hno,
      b, rfl, Break.isPeerClosed_failure_iff, .inr ⟨Writer.send_eq_ok_iff.mp hsend, hbreaks⟩⟩

end Exchange

theorem records_entries {σ : Type} (p : Peer σ) (e : Failure) (trail : List Audit.Entry) :
    Records p.channel e trail (trail ++ p.entries e) where
  closed h := by
    rw [Peer.entries, if_pos h]
    rfl
  silent h := by
    rw [Peer.entries, if_neg (by rw [h]; nofun), List.append_nil]

section Run

variable {r r' : Relay} {payload : Bytes} {result : Except Failure Bytes}

/-- **Failures are kept apart.** Whatever the streams deliver and wherever writing or flushing
fails: a run refuses a payload that is not a token and does nothing; it records nothing if it
succeeds; and if it fails, it fails at one of the stages and leaves the other one as it should. -/
theorem run_isolates (h : r.run payload = (result, r')) :
    (payload = [] ∨ (∃ b ∈ payload, isBlank b = true) →
      (∃ detail, result = .error (.invalidArgument detail)) ∧ r' = r) ∧
    (∀ reply, result = .ok reply → r'.trail = r.trail) ∧
    ∀ e, result = .error e → payload ≠ [] → (∀ b ∈ payload, isBlank b = false) →
      FailsAtA r payload e r' ∨ ∃ token, FailsAtB r payload token e r' := by
  have hbad : payload = [] ∨ (∃ b ∈ payload, isBlank b = true) → ¬ IsToken payload := by
    rintro (rfl | ⟨b, hb, hblank⟩) ⟨hne, hall⟩
    · exact hne rfl
    · rw [hall b hb] at hblank
      cases hblank
  cases run_eq_iff.mp h with
  | refused hp =>
    exact ⟨fun _ => ⟨⟨_, rfl⟩, rfl⟩, nofun, fun e _ hne hall => absurd ⟨hne, hall⟩ hp⟩
  | failedA hp ha =>
    refine ⟨fun hno => absurd hp (hbad hno), nofun, fun e he _ _ => ?_⟩
    cases he
    exact .inl ⟨ha.fails, rfl, rfl, records_entries Ends.peerA _ _⟩
  | failedB hp ha hb =>
    refine ⟨fun hno => absurd hp (hbad hno), nofun, fun e he _ _ => ?_⟩
    cases he
    obtain ⟨hsend, hread⟩ := ha.of_ok
    obtain ⟨p, -, hwritten, hall⟩ :=
      r.ends.toA.sendCommand_accepts stageA r.commands.encodeCommand payload
    rw [hsend] at hwritten hall
    obtain ⟨rfl, hflushed⟩ := hall rfl
    exact .inr ⟨_, hwritten, hflushed, hread, Reader.isToken_of_readToken hread,
      Reader.exists_blanks_of_readToken hread, hb.fails, records_entries Ends.peerB _ _⟩
  | passed hp ha hb => exact ⟨fun hno => absurd hp (hbad hno), fun _ _ => rfl, nofun⟩

/-- Stage A replies in two pieces, and the line to stage B breaks off behind eight bytes. -/
theorem run_isolates_cut :
    let toB : Writer := { Writer.working with room := some 8 }
    let r : Relay := ⟨.standard, ⟨.working, .ofTexts ["a", "b\nc"], toB, .ofTexts ["d"]⟩, []⟩
    let r' := (r.run (Bytes.ofString "x")).2
    (∃ token, FailsAtB r (Bytes.ofString "x") token (.peerClosed stageB) r') ∧
      r'.ends.toB.written = Bytes.ofString "DECODE a" ∧ r'.ends.fromB = r.ends.fromB ∧
      r'.trail = [⟨.peerClosed, .warning, "Peer closed channel 'stage-b'", some "stage-b", none, none⟩] := by
  intro toB r r'
  have hwritten : r'.ends.toB.written = Bytes.ofString "DECODE a" := by decide +kernel
  have hfails : (r.run (Bytes.ofString "x")).1 = .error (.peerClosed stageB) := by decide +kernel
  rcases (run_isolates (Prod.ext hfails rfl : r.run _ = (_, r'))).2.2 _ rfl (by decide +kernel)
    (by decide +kernel) with hA | ⟨token, hB⟩
  · rw [hA.toB] at hwritten
    exact absurd hwritten (by decide +kernel)
  · exact ⟨⟨token, hB⟩, hwritten, by decide +kernel, hB.trail.closed rfl⟩

end Run

end Referee.Relay
