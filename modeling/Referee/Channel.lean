import Referee.Stream
import Referee.Token

/-!
# Channels

A peer sends tokens and is sent lines. `Reader.readToken` takes one token off a stream and leaves
the blank after it unread; it asks for no buffer beyond the one in which the token ends.
-/

namespace Referee

/-- The longest token that a peer may send. -/
def maxTokenLength : Nat := 65536

/-- A fault that means that the peer has gone away is a closed channel. -/
def Failure.ofFault (channel : String) (fault : Fault) : Failure :=
  if fault.kind.isPeerClosed then .peerClosed channel else .io fault

def Failure.tokenTooLong (channel : String) : Failure :=
  .protocol ("token on '" ++ channel ++ "' exceeds " ++ maxTokenLength.repr ++ " bytes")

/-- Continues a token with the bytes of a buffer, and the bytes from its delimiter on. Blanks in
front of the token are passed over. -/
def takeToken (token buffer : Bytes) : Bytes × Bytes :=
  let bs := if token.isEmpty then buffer.dropWhile isBlank else buffer
  (token ++ bs.takeWhile (!isBlank ·), bs.dropWhile (!isBlank ·))

namespace Reader

/-- A stream whose next buffer has the given bytes left. -/
def pushBack (rest : Bytes) (r : Reader) : Reader :=
  if rest.isEmpty then r else .data rest :: r

/-- The end of the stream ends a token, if there is one. -/
def tokenAtEnd (channel : String) (token : Bytes) : Except Failure Bytes :=
  if token.isEmpty then .error (.peerClosed channel) else .ok token

/-- Reads the rest of a token of which some bytes have been read. -/
def continueToken (channel : String) (token : Bytes) : Reader → Except Failure Bytes × Reader
  | [] => (tokenAtEnd channel token, [])
  | .fault fault :: r =>
    if fault.kind = .interrupted then continueToken channel token r
    else (.error (.ofFault channel fault), r)
  | .data buffer :: r =>
    if buffer.isEmpty then (tokenAtEnd channel token, r)
    else
      let (token, rest) := takeToken token buffer
      if maxTokenLength < token.length then (.error (.tokenTooLong channel), pushBack rest r)
      else if rest.isEmpty then continueToken channel token r
      else (.ok token, pushBack rest r)

/-- The next token of a stream. -/
def readToken (channel : String) (r : Reader) : Except Failure Bytes × Reader :=
  continueToken channel [] r

/-- A measure of what a stream will deliver. -/
def size : Reader → Nat
  | [] => 0
  | .fault _ :: r => size r + 1
  | .data bs :: r => size r + bs.length + 1

theorem size_pushBack (rest : Bytes) (r : Reader) :
    (pushBack rest r).size ≤ r.size + rest.length + 1 := by
  unfold pushBack
  split
  · omega
  · simp [size]

theorem length_takeToken (token buffer : Bytes) :
    (takeToken token buffer).1.length + (takeToken token buffer).2.length
      ≤ token.length + buffer.length := by
  have split : ∀ bs : Bytes,
      (bs.takeWhile (!isBlank ·)).length + (bs.dropWhile (!isBlank ·)).length = bs.length := fun bs => by
    rw [← List.length_append, List.takeWhile_append_dropWhile]
  have blanks := (List.dropWhile_sublist isBlank (l := buffer)).length_le
  simp only [takeToken, List.length_append]
  split
  · have := split (buffer.dropWhile isBlank)
    omega
  · have := split buffer
    omega

/-- A buffer is left over only once a token has begun. -/
theorem fst_takeToken_ne_nil {token buffer : Bytes} (h : (takeToken token buffer).2 ≠ []) :
    (takeToken token buffer).1 ≠ [] := by
  intro e
  simp only [takeToken, List.append_eq_nil_iff] at e h
  obtain ⟨rfl, e⟩ := e
  simp only [List.isEmpty_nil, ite_true] at e h
  cases hb : buffer.dropWhile isBlank with
  | nil => exact h (by rw [hb]; rfl)
  | cons b bs =>
    have hn : isBlank b = false := by
      have := List.head_dropWhile_not isBlank (l := buffer) (by simp [hb])
      simpa [hb] using this
    simp [hb, hn] at e

/-- A token takes at least its own length off the stream. -/
theorem size_continueToken {channel : String} {token t : Bytes} {r r' : Reader}
    (h : continueToken channel token r = (.ok t, r')) :
    t ≠ [] ∧ r'.size + t.length ≤ r.size + token.length := by
  have atEnd : ∀ {token : Bytes}, tokenAtEnd channel token = .ok t → t ≠ [] ∧ t = token := by
    intro token h
    unfold tokenAtEnd at h
    split at h
    · simp at h
    · rename_i ht
      cases h
      exact ⟨by simpa using ht, rfl⟩
  induction r generalizing token with
  | nil =>
    simp only [continueToken, Prod.mk.injEq] at h
    obtain ⟨ht, rfl⟩ := h
    have := atEnd ht
    exact ⟨this.1, by simp [size, this.2]⟩
  | cons c r ih =>
    cases c with
    | fault fault =>
      simp only [continueToken] at h
      split at h
      · have := ih h
        simp only [size]
        exact ⟨this.1, by omega⟩
      · simp at h
    | data buffer =>
      simp only [continueToken] at h
      split at h
      · simp only [Prod.mk.injEq] at h
        obtain ⟨ht, rfl⟩ := h
        have := atEnd ht
        simp only [size, this.2]
        exact ⟨this.2 ▸ this.1, by omega⟩
      · have len := length_takeToken token buffer
        split at h
        · simp at h
        · split at h
          · have := ih h
            simp only [size]
            exact ⟨this.1, by omega⟩
          · rename_i hrest
            simp only [Prod.mk.injEq, Except.ok.injEq] at h
            obtain ⟨rfl, rfl⟩ := h
            have := size_pushBack (takeToken token buffer).2 r
            exact ⟨fst_takeToken_ne_nil (by simpa using hrest), by simp only [size]; omega⟩

theorem size_readToken {channel : String} {t : Bytes} {r r' : Reader}
    (h : readToken channel r = (.ok t, r')) : r'.size < r.size := by
  obtain ⟨ht, hs⟩ := size_continueToken h
  have : t.length ≠ 0 := by simpa using ht
  simp only [List.length_nil] at hs
  omega

end Reader

/-- Writes the pieces and flushes, so that the peer sees them. -/
def Writer.send (channel : String) (pieces : List Bytes) (w : Writer) : Except Failure Unit × Writer :=
  let (result, w) := w.writeFlushing pieces
  (result.mapError (.ofFault channel), w)

/-- Sends a line of text. -/
def Writer.sendLine (channel line : String) (w : Writer) : Except Failure Unit × Writer :=
  w.send channel [Bytes.ofString line, [10]]

/-- A command word, a space and a payload as one line. -/
def commandLine (command : String) (payload : Bytes) : Bytes :=
  Bytes.ofString command ++ 32 :: payload ++ [10]

def Writer.sendCommand (channel command : String) (payload : Bytes) (w : Writer) :
    Except Failure Unit × Writer :=
  w.send channel [commandLine command payload]

end Referee
