import Referee.Proofs.Channel
import Referee.Relay

/-!
# One run of the relay

An exchange with a stage fails while the command is sent, or comes to whatever is read after that:
`Exchange` lists both. A run refuses its payload, fails at stage A, fails at stage B or returns the
reply of stage B: `Run` lists these four, and `run_eq_iff` states that `run` does exactly that. Only
this module opens `run`.
-/

namespace Referee.Relay

/-! ## Exchanges with a stage -/

/-- What an exchange over two streams can come to. -/
inductive Exchange (channel command : String) (payload : Bytes) (w : Writer) (r : Reader) :
    Except Failure Bytes → Writer → Reader → Prop where
  | unsent {e : Failure} {w' : Writer} (hsend : w.sendCommand channel command payload = (.error e, w')) :
      Exchange channel command payload w r (.error e) w' r
  | sent {result : Except Failure Bytes} {w' : Writer} {r' : Reader}
      (hsend : w.sendCommand channel command payload = (.ok (), w'))
      (hread : r.readToken channel = (result, r')) :
      Exchange channel command payload w r result w' r'

section Exchange

variable {channel command : String} {payload : Bytes} {w w' : Writer} {r r' : Reader}
  {result : Except Failure Bytes}

theorem exists_exchange (channel command : String) (payload : Bytes) (w : Writer) (r : Reader) :
    ∃ result w' r', Exchange channel command payload w r result w' r' := by
  rcases hsend : w.sendCommand channel command payload with ⟨e | _, w'⟩
  · exact ⟨_, _, _, .unsent hsend⟩
  · exact ⟨_, _, _, .sent hsend rfl⟩

/-- A reply is read after the whole line has been sent. -/
theorem Exchange.of_ok {reply : Bytes} (h : Exchange channel command payload w r (.ok reply) w' r') :
    w.sendCommand channel command payload = (.ok (), w') ∧ r.readToken channel = (.ok reply, r') := by
  cases h with
  | sent hsend hread => exact ⟨hsend, hread⟩

theorem Exchange.writer_eq (h : Exchange channel command payload w r result w' r') :
    w' = (w.sendCommand channel command payload).2 := by
  cases h with
  | unsent hsend | sent hsend hread => rw [hsend]

/-- Over a writer that never fails only the reading counts. -/
theorem exchange_of_reliable (hw : w.Reliable) (command : String) (payload : Bytes)
    (hread : r.readToken channel = (result, r')) :
    ∃ w', Exchange channel command payload w r result w' r' ∧ w'.Reliable ∧
      w'.written = w.written ++ commandLine command payload :=
  ⟨_, .sent (Writer.sendCommand_of_reliable hw channel command payload) hread, hw, rfl⟩

end Exchange

namespace Ends

variable {e : Ends} {command : String} {payload : Bytes} {w : Writer} {r : Reader}
  {result : Except Failure Bytes}

theorem exchange_peerA (h : Exchange stageA command payload e.toA e.fromA result w r) :
    peerA.exchange command payload e = (result, { e with toA := w, fromA := r }) := by
  cases h with
  | unsent hsend =>
    simp only [Peer.exchange, peerA, show e.toA.send stageA [_] = _ from hsend]
  | sent hsend hread =>
    simp only [Peer.exchange, peerA, show e.toA.send stageA [_] = _ from hsend, hread]

theorem exchange_peerB (h : Exchange stageB command payload e.toB e.fromB result w r) :
    peerB.exchange command payload e = (result, { e with toB := w, fromB := r }) := by
  cases h with
  | unsent hsend =>
    simp only [Peer.exchange, peerB, show e.toB.send stageB [_] = _ from hsend]
  | sent hsend hread =>
    simp only [Peer.exchange, peerB, show e.toB.send stageB [_] = _ from hsend, hread]

end Ends

/-! ## Runs -/

/-- What a run can come to. -/
inductive Run (r : Relay) (payload : Bytes) : Except Failure Bytes → Relay → Prop where
  | refused (hp : ¬ IsToken payload) : Run r payload (.error (badPayload payload)) r
  | failedA {e : Failure} {toA : Writer} {fromA : Reader} (hp : IsToken payload)
      (ha : Exchange stageA r.commands.encodeCommand payload r.ends.toA r.ends.fromA (.error e)
        toA fromA) :
      Run r payload (.error e) { r with
        ends := { r.ends with toA := toA, fromA := fromA }
        trail := r.trail ++ Ends.peerA.entries e }
  | failedB {e : Failure} {encoded : Bytes} {toA toB : Writer} {fromA fromB : Reader}
      (hp : IsToken payload)
      (ha : Exchange stageA r.commands.encodeCommand payload r.ends.toA r.ends.fromA (.ok encoded)
        toA fromA)
      (hb : Exchange stageB r.commands.decodeCommand encoded r.ends.toB r.ends.fromB (.error e)
        toB fromB) :
      Run r payload (.error e) { r with
        ends := ⟨toA, fromA, toB, fromB⟩
        trail := r.trail ++ Ends.peerB.entries e }
  | passed {encoded reply : Bytes} {toA toB : Writer} {fromA fromB : Reader}
      (hp : IsToken payload)
      (ha : Exchange stageA r.commands.encodeCommand payload r.ends.toA r.ends.fromA (.ok encoded)
        toA fromA)
      (hb : Exchange stageB r.commands.decodeCommand encoded r.ends.toB r.ends.fromB (.ok reply)
        toB fromB) :
      Run r payload (.ok reply) { r with ends := ⟨toA, fromA, toB, fromB⟩ }

section Run

variable {r r' : Relay} {payload : Bytes} {result : Except Failure Bytes}

theorem refuses_iff (payload : Bytes) :
    (payload.isEmpty || payload.any isBlank) = true ↔ ¬ IsToken payload := by
  simp [IsToken, or_iff_not_imp_left]

theorem Run.eq (h : Run r payload result r') : r.run payload = (result, r') := by
  have hpass := mt (refuses_iff payload).mp
  cases h with
  | refused hp =>
    simp only [run, pass, if_pos ((refuses_iff payload).mpr hp), List.append_nil]
  | failedA hp ha =>
    simp only [run, pass, if_neg (hpass (not_not.mpr hp)), Ends.exchange_peerA ha]
  | @failedB _ _ toA _ fromA _ hp ha hb =>
    have hb := Ends.exchange_peerB (e := { r.ends with toA := toA, fromA := fromA }) hb
    simp only [run, pass, if_neg (hpass (not_not.mpr hp)), Ends.exchange_peerA ha, hb]
  | @passed _ _ toA _ fromA _ hp ha hb =>
    have hb := Ends.exchange_peerB (e := { r.ends with toA := toA, fromA := fromA }) hb
    simp only [run, pass, if_neg (hpass (not_not.mpr hp)), Ends.exchange_peerA ha, hb,
      List.append_nil]

theorem exists_run (r : Relay) (payload : Bytes) : ∃ result r', Run r payload result r' := by
  by_cases hp : IsToken payload
  · obtain ⟨e | encoded, toA, fromA, ha⟩ :=
      exists_exchange stageA r.commands.encodeCommand payload r.ends.toA r.ends.fromA
    · exact ⟨_, _, .failedA hp ha⟩
    obtain ⟨e | reply, toB, fromB, hb⟩ :=
      exists_exchange stageB r.commands.decodeCommand encoded r.ends.toB r.ends.fromB
    · exact ⟨_, _, .failedB hp ha hb⟩
    · exact ⟨_, _, .passed hp ha hb⟩
  · exact ⟨_, _, .refused hp⟩

/-- **A run does exactly one of the four.** -/
theorem run_eq_iff : r.run payload = (result, r') ↔ Run r payload result r' := by
  constructor
  · intro h
    obtain ⟨result', r'', hrun⟩ := exists_run r payload
    rw [hrun.eq] at h
    cases h
    exact hrun
  · exact Run.eq

end Run

end Referee.Relay
