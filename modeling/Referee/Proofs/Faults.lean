import Referee.Proofs.Channel

/-!
# How a call over a channel fails

Reading a token fails when the stream ends in front of it, when the stream has a fault or when the
token gets too long. `Reader.Breaks` says where on the stream that happens and what is left, and
`readToken_eq_error_iff` that a read fails in just these ways. Sending fails with a fault of the
writer (`Writer.send_eq_error_iff`).
-/

namespace Referee

/-- Why a call over a channel fails. -/
inductive Break where
  | ended
  | fault (fault : Fault)
  | tooLong
  deriving DecidableEq, Repr

namespace Break

def failure (channel : String) : Break → Failure
  | ended => .peerClosed channel
  | fault f => .ofFault channel f
  | tooLong => .tokenTooLong channel

end Break

theorem FaultKind.isPeerClosed_iff {kind : FaultKind} : kind.isPeerClosed = true ↔
    kind = .brokenPipe ∨ kind = .unexpectedEof ∨ kind = .connectionReset := by
  cases kind <;> decide

theorem Failure.isPeerClosed_ofFault (channel : String) (fault : Fault) :
    (Failure.ofFault channel fault).isPeerClosed = fault.kind.isPeerClosed := by
  unfold ofFault
  cases h : fault.kind.isPeerClosed with
  | true => rfl
  | false => exact h

/-- **A failure says that the peer has gone** if the stream has ended or a fault is of a kind that
means so. -/
theorem Break.isPeerClosed_failure_iff {channel : String} {b : Break} :
    (b.failure channel).isPeerClosed = true ↔ b = .ended ∨ ∃ f : Fault, b = .fault f ∧
      (f.kind = .brokenPipe ∨ f.kind = .unexpectedEof ∨ f.kind = .connectionReset) := by
  cases b with
  | ended => simp [failure, Failure.isPeerClosed]
  | fault f => simp [failure, Failure.isPeerClosed_ofFault, FaultKind.isPeerClosed_iff]
  | tooLong => simp [failure, Failure.isPeerClosed, Failure.tokenTooLong]

/-! ## Reading -/

namespace Reader

/-- How a read that already holds some bytes of a token fails, and the stream after it. -/
inductive Breaks : Bytes → Reader → Break → Reader → Prop where
  | ended : Breaks [] [] .ended []
  | emptied {r : Reader} : Breaks [] (.data [] :: r) .ended r
  | fault {token : Bytes} {f : Fault} {r : Reader} (hk : f.kind ≠ .interrupted) :
      Breaks token (.fault f :: r) (.fault f) r
  | tooLong {token buffer : Bytes} {r : Reader} (hne : buffer ≠ [])
      (hlen : maxTokenLength < (takeToken token buffer).1.length) :
      Breaks token (.data buffer :: r) .tooLong (pushBack (takeToken token buffer).2 r)
  | interrupted {token : Bytes} {f : Fault} {r r' : Reader} {b : Break} (hk : f.kind = .interrupted)
      (h : Breaks token r b r') : Breaks token (.fault f :: r) b r'
  | later {token buffer : Bytes} {r r' : Reader} {b : Break} (hne : buffer ≠ [])
      (hlen : (takeToken token buffer).1.length ≤ maxTokenLength)
      (hrest : (takeToken token buffer).2 = []) (h : Breaks (takeToken token buffer).1 r b r') :
      Breaks token (.data buffer :: r) b r'

section Breaks

variable {channel : String} {token : Bytes} {r r' : Reader} {b : Break} {e : Failure}

theorem tokenAtEnd_eq_error_iff :
    tokenAtEnd channel token = .error e ↔ token = [] ∧ e = .peerClosed channel := by
  unfold tokenAtEnd
  cases token with
  | nil => simp [eq_comm]
  | cons => simp

theorem Breaks.continueToken_eq (h : Breaks token r b r') :
    continueToken channel token r = (.error (b.failure channel), r') := by
  induction h with
  | ended => rfl
  | emptied => rfl
  | fault hk => rw [continueToken, if_neg hk, Break.failure]
  | tooLong hne hlen =>
    rw [continueToken, if_neg (by simpa using hne)]
    simp only [if_pos hlen, Break.failure]
  | interrupted hk _ ih => rw [continueToken, if_pos hk, ih]
  | later hne hlen hrest _ ih =>
    rw [continueToken, if_neg (by simpa using hne)]
    simp only [if_neg (Nat.not_lt.mpr hlen), hrest, List.isEmpty_nil, if_true, ih]

theorem exists_breaks (h : continueToken channel token r = (.error e, r')) :
    ∃ b, e = b.failure channel ∧ Breaks token r b r' := by
  induction r generalizing token with
  | nil =>
    obtain ⟨hend, rfl⟩ := Prod.mk.inj h
    obtain ⟨rfl, rfl⟩ := tokenAtEnd_eq_error_iff.mp hend
    exact ⟨.ended, rfl, .ended⟩
  | cons c r ih =>
    cases c with
    | fault f =>
      rw [continueToken] at h
      split at h
      · rename_i hk
        obtain ⟨b, he, hb⟩ := ih h
        exact ⟨b, he, .interrupted hk hb⟩
      · rename_i hk
        cases h
        exact ⟨.fault f, rfl, .fault hk⟩
    | data buffer =>
      by_cases hne : buffer = []
      · subst hne
        obtain ⟨hend, rfl⟩ := Prod.mk.inj h
        obtain ⟨rfl, rfl⟩ := tokenAtEnd_eq_error_iff.mp hend
        exact ⟨.ended, rfl, .emptied⟩
      rw [continueToken, if_neg (by simpa using hne)] at h
      simp only at h
      split at h
      · rename_i hlen
        cases h
        exact ⟨.tooLong, rfl, .tooLong hne hlen⟩
      rename_i hlen
      split at h
      · rename_i hrest
        obtain ⟨b, he, hb⟩ := ih h
        exact ⟨b, he, .later hne (Nat.not_lt.mp hlen) (by simpa using hrest) hb⟩
      · cases h

/-- **A read fails in just these ways.** -/
theorem readToken_eq_error_iff : readToken channel r = (.error e, r') ↔
    ∃ b, e = b.failure channel ∧ Breaks [] r b r' := by
  constructor
  · exact exists_breaks
  · rintro ⟨b, rfl, h⟩
    exact h.continueToken_eq

end Breaks

/-! ## What a read takes off the stream -/

/-- The bytes `bs` carry a token on from `token` to `t`: blanks if it has not begun, then bytes of it. -/
def Carries (token bs t : Bytes) : Prop :=
  ∃ w u, (∀ b ∈ w, isBlank b = true) ∧ (token ≠ [] → w = []) ∧ bs = w ++ u ∧ t = token ++ u

section Carries

variable {channel : String} {token t t' bs bs' : Bytes} {r r' : Reader}

theorem Carries.refl (token : Bytes) : Carries token [] token :=
  ⟨[], [], nofun, fun _ => rfl, rfl, (List.append_nil _).symm⟩

theorem Carries.trans (h : Carries token bs t) (h' : Carries t bs' t') :
    Carries token (bs ++ bs') t' := by
  obtain ⟨w, u, hw, hbegun, rfl, rfl⟩ := h
  obtain ⟨w', u', hw', hbegun', rfl, rfl⟩ := h'
  by_cases hu : u = []
  · subst hu
    refine ⟨w ++ w', u', ?_, ?_, by simp, by simp⟩
    · exact fun b hb => (List.mem_append.mp hb).elim (hw b) (hw' b)
    · intro ht
      rw [hbegun ht, hbegun' (by simpa using ht), List.nil_append]
  · obtain rfl : w' = [] := hbegun' (by simp [hu])
    exact ⟨w, u ++ u', hw, hbegun, by simp, by simp⟩

theorem exists_carries_takeToken (token buffer : Bytes) : ∃ bs,
    Carries token bs (takeToken token buffer).1 ∧ buffer = bs ++ (takeToken token buffer).2 := by
  by_cases ht : token = []
  · subst ht
    rw [takeToken_nil]
    refine ⟨buffer.takeWhile isBlank ++ (buffer.dropWhile isBlank).takeWhile (!isBlank ·),
      ⟨_, _, fun b hb => List.mem_takeWhile_imp hb, fun h => absurd rfl h, rfl, rfl⟩, ?_⟩
    rw [List.append_assoc, List.takeWhile_append_dropWhile, List.takeWhile_append_dropWhile]
  · rw [takeToken_of_ne_nil ht]
    refine ⟨_, ⟨[], _, nofun, fun _ => rfl, rfl, rfl⟩, ?_⟩
    rw [List.nil_append, List.takeWhile_append_dropWhile]

theorem exists_carries_continueToken (h : continueToken channel token r = (.ok t, r')) :
    ∃ bs, Carries token bs t ∧ bytes r = bs ++ bytes r' := by
  induction r generalizing token with
  | nil =>
    obtain ⟨hend, rfl⟩ := Prod.mk.inj h
    exact ⟨[], eq_of_tokenAtEnd hend ▸ .refl token, rfl⟩
  | cons c r ih =>
    cases c with
    | fault f =>
      rw [continueToken] at h
      split at h
      · exact ih h
      · cases h
    | data buffer =>
      by_cases hne : buffer = []
      · subst hne
        obtain ⟨hend, rfl⟩ := Prod.mk.inj h
        exact ⟨[], eq_of_tokenAtEnd hend ▸ .refl token, rfl⟩
      obtain ⟨bs, hcarries, hbuffer⟩ := exists_carries_takeToken token buffer
      rw [continueToken, if_neg (by simpa using hne)] at h
      simp only at h
      split at h
      · cases h
      split at h
      · rename_i hrest
        obtain ⟨bs', hcarries', hbytes⟩ := ih h
        refine ⟨bs ++ bs', hcarries.trans hcarries', ?_⟩
        rw [List.isEmpty_iff.mp hrest, List.append_nil] at hbuffer
        rw [bytes_data, hbytes, ← hbuffer, List.append_assoc]
      · cases h
        exact ⟨bs, hcarries, by rw [bytes_pushBack, ← List.append_assoc, ← hbuffer, bytes_data]⟩

/-- **A read takes one token off the stream, and nothing else** but the blanks in front of it,
whatever the stream delivers. -/
theorem exists_blanks_of_readToken (h : readToken channel r = (.ok t, r')) :
    ∃ w, (∀ b ∈ w, isBlank b = true) ∧ bytes r = w ++ t ++ bytes r' := by
  obtain ⟨bs, ⟨w, u, hw, -, rfl, rfl⟩, hbytes⟩ := exists_carries_continueToken h
  exact ⟨w, hw, hbytes⟩

end Carries

end Reader

/-! ## Sending -/

namespace Writer

variable {channel : String} {pieces : List Bytes} {w w' : Writer} {e : Failure}

theorem send_eq_ok_iff :
    w.send channel pieces = (.ok (), w') ↔ w.writeFlushing pieces = (.ok (), w') := by
  rw [send]
  rcases w.writeFlushing pieces with ⟨f | _, w''⟩ <;> simp [Except.mapError]

/-- A send fails with a fault of the writer. -/
theorem send_eq_error_iff : w.send channel pieces = (.error e, w') ↔
    ∃ f, e = (Break.fault f).failure channel ∧ w.writeFlushing pieces = (.error f, w') := by
  rw [send]
  rcases w.writeFlushing pieces with ⟨f | _, w''⟩ <;> simp [Except.mapError, Break.failure, eq_comm]

end Writer

end Referee
