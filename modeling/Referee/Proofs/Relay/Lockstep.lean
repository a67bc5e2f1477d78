import Referee.Proofs.Relay.Run

/-!
# The relay in lock step with its stages

Over steady streams and reliable writers a run takes one token from stage A, and one from stage B
if there was one from stage A. `reply` says what run number `i` comes to; `Ready.runAll` carries
that through any number of runs, with everything that is sent and what is left to be read.
-/

namespace Referee.Relay

/-- Runs for one payload after the other, whatever they come to. -/
def runAll : List Bytes → Relay → List (Except Failure Bytes) × Relay
  | [], r => ([], r)
  | p :: ps, r =>
    let (result, r) := r.run p
    let (results, r) := runAll ps r
    (result :: results, r)

/-- What run number `i` comes to if the stages send the tokens `as` and `bs`. -/
def reply (as bs : List Bytes) (i : Nat) : Except Failure Bytes :=
  match as[i]?, bs[i]? with
  | none, _ => .error (.peerClosed stageA)
  | some _, none => .error (.peerClosed stageB)
  | some _, some b => .ok b

section Reply

variable {as bs : List Bytes} {i n : Nat}

theorem reply_of_silentA (bs : List Bytes) (h : as.length ≤ i) :
    reply as bs i = .error (.peerClosed stageA) := by
  rw [reply, List.getElem?_eq_none h]

theorem reply_of_silentB (ha : i < as.length) (hb : bs.length ≤ i) :
    reply as bs i = .error (.peerClosed stageB) := by
  rw [reply, List.getElem?_eq_getElem ha, List.getElem?_eq_none hb]

theorem reply_of_lt (ha : i < as.length) (hb : i < bs.length) : reply as bs i = .ok bs[i] := by
  rw [reply, List.getElem?_eq_getElem ha, List.getElem?_eq_getElem hb]

theorem map_reply_range (ha : n ≤ as.length) (hb : n ≤ bs.length) :
    (List.range n).map (reply as bs) = (bs.take n).map .ok := by
  apply List.ext_getElem
  · simp [hb]
  · intro i hi _
    have hi : i < n := by simpa using hi
    simp [reply_of_lt (Nat.lt_of_lt_of_le hi ha) (Nat.lt_of_lt_of_le hi hb)]

/-- What stage B still has to send after a run: it is asked only if stage A answers. -/
def leftOfB (as bs : List Bytes) : List Bytes := if as = [] then bs else bs.tail

theorem reply_succ (as bs : List Bytes) (i : Nat) :
    reply as bs (i + 1) = reply as.tail (leftOfB as bs) i := by
  cases as with
  | nil => rfl
  | cons a as => cases bs <;> rfl

end Reply

/-! ## One stage -/

/-- A stage that can be written to and sends the tokens `ts`. -/
structure Serves (w : Writer) (r : Reader) (ts : List Bytes) : Prop where
  reliable : w.Reliable
  steady : r.Steady
  tokens : tokens r.bytes = ts
  short : ∀ t ∈ ts, t.length ≤ maxTokenLength

section Stage

variable {w : Writer} {r : Reader} {t : Bytes} {ts : List Bytes}

theorem Serves.silent (h : Serves w r []) (channel command : String) (payload : Bytes) :
    ∃ w' r', Exchange channel command payload w r (.error (.peerClosed channel)) w' r' ∧
      Serves w' r' [] ∧ w'.written = w.written ++ commandLine command payload := by
  have hread := Reader.readToken_of_no_tokens channel h.steady h.tokens
  obtain ⟨w', hexchange, hreliable, hwritten⟩ :=
    exchange_of_reliable h.reliable command payload hread
  exact ⟨w', [], hexchange, ⟨hreliable, Reader.steady_nil, rfl, nofun⟩, hwritten⟩

theorem Serves.answers (h : Serves w r (t :: ts)) (channel command : String) (payload : Bytes) :
    ∃ w' r', Exchange channel command payload w r (.ok t) w' r' ∧ Serves w' r' ts ∧
      w'.written = w.written ++ commandLine command payload ∧ TokensThen r.bytes [t] r'.bytes := by
  obtain ⟨r', hsteady, hthen, hread⟩ :=
    Reader.readToken_of_short channel h.steady h.tokens (h.short t List.mem_cons_self)
  obtain ⟨w', hexchange, hreliable, hwritten⟩ :=
    exchange_of_reliable h.reliable command payload hread
  have htokens : t :: ts = t :: Referee.tokens r'.bytes := h.tokens.symm.trans hthen.tokens_eq
  exact ⟨w', r', hexchange, ⟨hreliable, hsteady, (List.cons.inj htokens).2.symm,
    fun s hs => h.short s (List.mem_cons_of_mem _ hs)⟩, hwritten, hthen⟩

end Stage

/-! ## What is sent -/

/-- What has been sent on the way from one relay to another: commands with these payloads to stage
A, and with these replies to stage B. -/
structure Sends (r r' : Relay) (payloads replies : List Bytes) : Prop where
  commands : r'.commands = r.commands
  toA : r'.ends.toA.written =
    r.ends.toA.written ++ payloads.flatMap (commandLine r.commands.encodeCommand)
  toB : r'.ends.toB.written =
    r.ends.toB.written ++ replies.flatMap (commandLine r.commands.decodeCommand)

theorem Sends.refl (r : Relay) : Sends r r [] [] :=
  ⟨rfl, (List.append_nil _).symm, (List.append_nil _).symm⟩

theorem Sends.of_line {r r' : Relay} {p : Bytes} (hc : r'.commands = r.commands)
    (hA : r'.ends.toA.written = r.ends.toA.written ++ commandLine r.commands.encodeCommand p)
    (hB : r'.ends.toB.written = r.ends.toB.written) : Sends r r' [p] [] where
  commands := hc
  toA := by rw [hA, List.flatMap_singleton]
  toB := by rw [hB, List.flatMap_nil, List.append_nil]

theorem Sends.of_lines {r r' : Relay} {p e : Bytes} (hc : r'.commands = r.commands)
    (hA : r'.ends.toA.written = r.ends.toA.written ++ commandLine r.commands.encodeCommand p)
    (hB : r'.ends.toB.written = r.ends.toB.written ++ commandLine r.commands.decodeCommand e) :
    Sends r r' [p] [e] where
  commands := hc
  toA := by rw [hA, List.flatMap_singleton]
  toB := by rw [hB, List.flatMap_singleton]

theorem Sends.trans {r r' r'' : Relay} {ps qs es fs : List Bytes} (h : Sends r r' ps es)
    (h' : Sends r' r'' qs fs) : Sends r r'' (ps ++ qs) (es ++ fs) where
  commands := h'.commands.trans h.commands
  toA := by rw [h'.toA, h.commands, h.toA, List.flatMap_append, List.append_assoc]
  toB := by rw [h'.toB, h.commands, h.toB, List.flatMap_append, List.append_assoc]

/-! ## One run -/

/-- A run with stages that have the tokens `as` and `bs` to send. -/
structure Passes (r : Relay) (payload : Bytes) (as bs : List Bytes) (r' : Relay) : Prop where
  run : r.run payload = (reply as bs 0, r')
  sends : Sends r r' [payload] (as.take 1)
  servesA : Serves r'.ends.toA r'.ends.fromA as.tail
  servesB : Serves r'.ends.toB r'.ends.fromB (leftOfB as bs)
  leavesA : 0 < as.length → TokensThen r.ends.fromA.bytes (as.take 1) r'.ends.fromA.bytes
  leavesB : 0 < as.length → 0 < bs.length →
    TokensThen r.ends.fromB.bytes (bs.take 1) r'.ends.fromB.bytes

theorem exists_passes {r : Relay} {payload : Bytes} {as bs : List Bytes} (hp : IsToken payload)
    (hA : Serves r.ends.toA r.ends.fromA as) (hB : Serves r.ends.toB r.ends.fromB bs) :
    ∃ r', Passes r payload as bs r' := by
  -- stage B is asked only if stage A has a token left
  cases as with
  | nil =>
    obtain ⟨toA, fromA, ha, hA', hwA⟩ := hA.silent stageA r.commands.encodeCommand payload
    exact ⟨_, (Run.failedA hp ha).eq, .of_line rfl hwA rfl, hA', hB, nofun, nofun⟩
  | cons a as =>
    obtain ⟨toA, fromA, ha, hA', hwA, hleavesA⟩ := hA.answers stageA r.commands.encodeCommand payload
    cases bs with
    | nil =>
      obtain ⟨toB, fromB, hb, hB', hwB⟩ := hB.silent stageB r.commands.decodeCommand a
      exact ⟨_, (Run.failedB hp ha hb).eq, .of_lines rfl hwA hwB, hA', hB', fun _ => hleavesA, nofun⟩
    | cons b bs =>
      obtain ⟨toB, fromB, hb, hB', hwB, hleavesB⟩ := hB.answers stageB r.commands.decodeCommand a
      exact ⟨_, (Run.passed hp ha hb).eq, .of_lines rfl hwA hwB, hA', hB', fun _ => hleavesA,
        fun _ _ => hleavesB⟩

/-! ## Any number of runs -/

/-- Runs with these payloads, with stages that have the tokens `as` and `bs` to send. -/
structure PassesAll (r : Relay) (payloads as bs : List Bytes) (r' : Relay) : Prop where
  runAll : runAll payloads r = ((List.range payloads.length).map (reply as bs), r')
  sends : Sends r r' payloads (as.take payloads.length)
  leavesA : payloads.length ≤ as.length →
    TokensThen r.ends.fromA.bytes (as.take payloads.length) r'.ends.fromA.bytes
  leavesB : payloads.length ≤ as.length → payloads.length ≤ bs.length →
    TokensThen r.ends.fromB.bytes (bs.take payloads.length) r'.ends.fromB.bytes

theorem take_one_append_take_tail (ts : List Bytes) (n : Nat) :
    ts.take 1 ++ ts.tail.take n = ts.take (n + 1) := by
  cases ts <;> simp

theorem PassesAll.nil (r : Relay) (as bs : List Bytes) : PassesAll r [] as bs r where
  runAll := rfl
  sends := by simpa using Sends.refl r
  leavesA _ := by simpa using TokensThen.nil r.ends.fromA.bytes
  leavesB _ _ := by simpa using TokensThen.nil r.ends.fromB.bytes

/-- A run in front of others. -/
theorem PassesAll.cons {r r' r'' : Relay} {p : Bytes} {ps as bs : List Bytes}
    (h : Passes r p as bs r') (hs : PassesAll r' ps as.tail (leftOfB as bs) r'') :
    PassesAll r (p :: ps) as bs r'' where
  runAll := by
    simp only [Relay.runAll, h.run, hs.runAll, List.length_cons, List.range_succ_eq_map,
      List.map_cons, List.map_map, Function.comp_def, reply_succ]
  sends := by
    rw [List.length_cons, ← take_one_append_take_tail, ← List.singleton_append]
    exact h.sends.trans hs.sends
  leavesA hA := by
    rw [List.length_cons] at hA ⊢
    rw [← take_one_append_take_tail]
    refine (h.leavesA (by omega)).trans (hs.leavesA ?_)
    rw [List.length_tail]
    omega
  leavesB hA hB := by
    rw [List.length_cons] at hA hB ⊢
    have hne : as ≠ [] := List.ne_nil_of_length_pos (by omega)
    have hleft : leftOfB as bs = bs.tail := if_neg hne
    rw [← take_one_append_take_tail]
    refine (h.leavesB (by omega) (by omega)).trans ?_
    rw [← hleft]
    refine hs.leavesB ?_ ?_
    · rw [List.length_tail]
      omega
    · rw [hleft, List.length_tail]
      omega

theorem exists_passesAll {payloads : List Bytes} (hp : ∀ p ∈ payloads, IsToken p) {r : Relay}
    {as bs : List Bytes} (hA : Serves r.ends.toA r.ends.fromA as)
    (hB : Serves r.ends.toB r.ends.fromB bs) : ∃ r', PassesAll r payloads as bs r' := by
  -- both stages serve what is left after each run, so the tokens vary with the relay
  induction payloads generalizing r as bs with
  | nil => exact ⟨r, .nil r as bs⟩
  | cons p ps ih =>
    obtain ⟨r', h⟩ := exists_passes (hp p List.mem_cons_self) hA hB
    obtain ⟨r'', hs⟩ := ih (fun q hq => hp q (List.mem_cons_of_mem _ hq)) h.servesA h.servesB
    exact ⟨r'', .cons h hs⟩

/-- **Run number `i` takes token number `i` of each stage.** Let the stages send the tokens `as` and
`bs`, none too long. The runs return what stage B sends as long as both have something to send, and
take just that; stage A is sent the payloads and stage B the replies of stage A, byte for byte.
A run fails with a closed channel at stage A once stage A has nothing more to send, and at stage B
once stage B has nothing more to send to what stage A has answered. -/
theorem runAll_lockstep {r : Relay} {payloads as bs : List Bytes} (hp : ∀ p ∈ payloads, IsToken p)
    (hA : Serves r.ends.toA r.ends.fromA as) (hB : Serves r.ends.toB r.ends.fromB bs) :
    ∃ results r', runAll payloads r = (results, r') ∧
      (payloads.length ≤ as.length → payloads.length ≤ bs.length →
        results = (bs.take payloads.length).map .ok ∧
        TokensThen r.ends.fromA.bytes (as.take payloads.length) r'.ends.fromA.bytes ∧
        TokensThen r.ends.fromB.bytes (bs.take payloads.length) r'.ends.fromB.bytes) ∧
      r'.ends.toA.written = r.ends.toA.written ++
        payloads.flatMap (fun p => Bytes.ofString r.commands.encodeCommand ++ [32] ++ p ++ [10]) ∧
      r'.ends.toB.written = r.ends.toB.written ++ (as.take payloads.length).flatMap
        (fun a => Bytes.ofString r.commands.decodeCommand ++ [32] ++ a ++ [10]) ∧
      (∀ i < payloads.length, as.length ≤ i → results[i]? = some (.error (.peerClosed stageA))) ∧
      (∀ i < payloads.length, i < as.length → bs.length ≤ i →
        results[i]? = some (.error (.peerClosed stageB))) := by
  obtain ⟨r', h⟩ := exists_passesAll hp hA hB
  have hline : ∀ command, commandLine command =
      fun p => Bytes.ofString command ++ [32] ++ p ++ [10] := by
    intro command
    funext p
    simp [commandLine]
  have hget : ∀ i < payloads.length,
      ((List.range payloads.length).map (reply as bs))[i]? = some (reply as bs i) := by
    intro i hi
    rw [List.getElem?_map, List.getElem?_range hi, Option.map_some]
  refine ⟨_, r', h.runAll, ?_, ?_, ?_, ?_, ?_⟩
  · exact fun ha hb => ⟨map_reply_range ha hb, h.leavesA ha, h.leavesB ha hb⟩
  · rw [h.sends.toA, hline]
  · rw [h.sends.toB, hline]
  · intro i hi ha
    rw [hget i hi, reply_of_silentA bs ha]
  · intro i hi ha hb
    rw [hget i hi, reply_of_silentB ha hb]

/-- Replies that come in pieces and together, one of them not text; stage B has none for the last. -/
theorem runAll_lockstep_cut :
    let a : Reader := [.data [0xFF], .fault ⟨.interrupted, ""⟩, .data [0x80, 10, 97, 32, 98]]
    let r : Relay := ⟨.standard, ⟨.working, a, .working, .ofTexts ["1", "0\r\n2"]⟩, []⟩
    let payloads := ["x", "y", "z"].map Bytes.ofString
    (∃ r', runAll (payloads.take 2) r = ([.ok [49, 48], .ok [50]], r') ∧
      TokensThen [0xFF, 0x80, 10, 97, 32, 98] [[0xFF, 0x80], [97]] r'.ends.fromA.bytes) ∧
    ∃ results r', runAll payloads r = (results, r') ∧
      r'.ends.toB.written = Bytes.ofString "DECODE " ++ [0xFF, 0x80] ++
        Bytes.ofString "\nDECODE a\nDECODE b\n" ∧
      results[2]? = some (.error (.peerClosed stageB)) := by
  intro a r payloads
  have ha : a.Steady := ((Reader.steady_nil.data (by decide)).interrupted rfl).data (by decide)
  have hA : Serves r.ends.toA r.ends.fromA [[0xFF, 0x80], [97], [98]] :=
    ⟨⟨rfl, rfl⟩, ha, by decide, by decide⟩
  have hB : Serves r.ends.toB r.ends.fromB [[49, 48], [50]] :=
    ⟨⟨rfl, rfl⟩, Reader.steady_ofTexts (by decide), by decide, by decide⟩
  have hp : ∀ p ∈ payloads, IsToken p := by decide
  constructor
  · have hp : ∀ p ∈ payloads.take 2, IsToken p := fun p h => hp p (List.mem_of_mem_take h)
    obtain ⟨results, r', hall, hboth, -⟩ := runAll_lockstep hp hA hB
    obtain ⟨rfl, hleft, -⟩ := hboth (by decide) (by decide)
    exact ⟨r', hall, hleft⟩
  · obtain ⟨results, r', hall, -, -, hsent, -, hsilent⟩ := runAll_lockstep hp hA hB
    refine ⟨results, r', hall, hsent.trans (by decide), ?_⟩
    exact hsilent 2 (by decide) (by decide) (by decide)

end Referee.Relay
