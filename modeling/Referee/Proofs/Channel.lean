import Referee.Channel
import Referee.Proofs.Tokens

/-!
# Tokens over a channel

A `Steady` stream delivers its bytes in non-empty buffers, perhaps with interrupted reads between
them. Reading from it is `takeToken` on all its bytes at once, however these are cut into buffers
(`continueToken_of_steady`), so the tokens of its bytes come one by one. On the other side, what a
writer accepts of a line is a prefix of it, and all of it if nothing fails (`sendLine_accepts`).
-/

namespace Referee

/-! ## Cutting a byte string -/

section Cut

variable {p : UInt8 → Bool} {a : Bytes}

theorem takeWhile_of_dropWhile_eq_nil (h : a.dropWhile p = []) : a.takeWhile p = a :=
  List.takeWhile_eq_self_iff.mpr (List.dropWhile_eq_nil_iff.mp h)

theorem takeWhile_append_of_dropWhile_eq_nil (h : a.dropWhile p = []) (b : Bytes) :
    (a ++ b).takeWhile p = a ++ b.takeWhile p :=
  List.takeWhile_append_of_pos (List.dropWhile_eq_nil_iff.mp h)

theorem dropWhile_append_of_dropWhile_eq_nil (h : a.dropWhile p = []) (b : Bytes) :
    (a ++ b).dropWhile p = b.dropWhile p :=
  List.dropWhile_append_of_pos (List.dropWhile_eq_nil_iff.mp h)

theorem dropWhile_append_of_dropWhile_ne_nil (h : a.dropWhile p ≠ []) (b : Bytes) :
    (a ++ b).dropWhile p = a.dropWhile p ++ b := by
  rw [List.dropWhile_append, if_neg (by simpa using h)]

theorem takeWhile_append_of_dropWhile_ne_nil (h : a.dropWhile p ≠ []) (b : Bytes) :
    (a ++ b).takeWhile p = a.takeWhile p := by
  have hab : (a ++ b).takeWhile p ++ (a ++ b).dropWhile p = a ++ b :=
    List.takeWhile_append_dropWhile
  rw [dropWhile_append_of_dropWhile_ne_nil h, ← List.append_assoc] at hab
  have ha : a.takeWhile p ++ a.dropWhile p = a := List.takeWhile_append_dropWhile
  exact List.append_cancel_right ((List.append_cancel_right hab).trans ha.symm)

end Cut

/-! ## A token is taken buffer by buffer -/

theorem takeToken_of_ne_nil {token : Bytes} (h : token ≠ []) (bs : Bytes) :
    takeToken token bs = (token ++ bs.takeWhile (!isBlank ·), bs.dropWhile (!isBlank ·)) := by
  rw [takeToken, if_neg (by simpa using h)]

theorem takeToken_nil (bs : Bytes) :
    takeToken [] bs = ((bs.dropWhile isBlank).takeWhile (!isBlank ·),
      (bs.dropWhile isBlank).dropWhile (!isBlank ·)) := rfl

/-- A buffer with bytes left over holds the end of the token. -/
theorem takeToken_append_of_rest {token a : Bytes} (h : (takeToken token a).2 ≠ []) (b : Bytes) :
    takeToken token (a ++ b) = ((takeToken token a).1, (takeToken token a).2 ++ b) := by
  by_cases ht : token = []
  · subst ht
    rw [takeToken_nil] at h
    have ha : a.dropWhile isBlank ≠ [] := fun e => h (by rw [e]; rfl)
    rw [takeToken_nil, takeToken_nil, dropWhile_append_of_dropWhile_ne_nil ha,
      takeWhile_append_of_dropWhile_ne_nil h, dropWhile_append_of_dropWhile_ne_nil h]
  · rw [takeToken_of_ne_nil ht] at h ⊢
    rw [takeToken_of_ne_nil ht, takeWhile_append_of_dropWhile_ne_nil h,
      dropWhile_append_of_dropWhile_ne_nil h]

/-- A buffer that is used up leaves the token to be continued. -/
theorem takeToken_append_of_no_rest {token a : Bytes} (h : (takeToken token a).2 = []) (b : Bytes) :
    takeToken token (a ++ b) = takeToken (takeToken token a).1 b := by
  by_cases ht : token = []
  · subst ht
    have h : (a.dropWhile isBlank).dropWhile (!isBlank ·) = [] := h
    by_cases ha : a.dropWhile isBlank = []
    · rw [takeToken_nil, dropWhile_append_of_dropWhile_eq_nil ha, takeToken_nil a, ha]
      rfl
    · rw [takeToken_nil, dropWhile_append_of_dropWhile_ne_nil ha, takeToken_nil a,
        takeWhile_of_dropWhile_eq_nil h, takeToken_of_ne_nil ha,
        takeWhile_append_of_dropWhile_eq_nil h, dropWhile_append_of_dropWhile_eq_nil h]
  · have hne : token ++ a.takeWhile (!isBlank ·) ≠ [] := by simp [ht]
    rw [takeToken_of_ne_nil ht] at h
    have h : a.dropWhile (!isBlank ·) = [] := h
    rw [takeToken_of_ne_nil ht, takeToken_of_ne_nil ht a, takeToken_of_ne_nil hne,
      takeWhile_append_of_dropWhile_eq_nil h, dropWhile_append_of_dropWhile_eq_nil h,
      takeWhile_of_dropWhile_eq_nil h, List.append_assoc]

theorem length_fst_takeToken_le (token bs : Bytes) :
    token.length ≤ (takeToken token bs).1.length := by
  simp [takeToken]

/-- More bytes never make the token shorter. -/
theorem length_fst_takeToken_append_le (token a b : Bytes) :
    (takeToken token a).1.length ≤ (takeToken token (a ++ b)).1.length := by
  by_cases h : (takeToken token a).2 = []
  · rw [takeToken_append_of_no_rest h]
    exact length_fst_takeToken_le _ b
  · rw [takeToken_append_of_rest h]

theorem takeToken_blanks {w : Bytes} (hw : ∀ b ∈ w, isBlank b = true) :
    takeToken [] w = ([], []) := by
  rw [takeToken_nil, List.dropWhile_eq_nil_iff.mpr hw]
  rfl

theorem takeToken_token {w t rest : Bytes} (hw : ∀ b ∈ w, isBlank b = true) (ht : IsToken t)
    (hb : AtBreak rest) : takeToken [] (w ++ (t ++ rest)) = (t, rest) := by
  obtain ⟨hne, ht⟩ := ht
  have hstart : (t ++ rest).dropWhile isBlank = t ++ rest := by
    obtain ⟨b, bs, rfl⟩ := List.exists_cons_of_ne_nil hne
    rw [List.cons_append, List.dropWhile_cons_of_neg (by simp [ht b List.mem_cons_self])]
  have hstop : rest.takeWhile (!isBlank ·) = [] ∧ rest.dropWhile (!isBlank ·) = rest := by
    cases rest with
    | nil => exact ⟨rfl, rfl⟩
    | cons b bs => simp [show isBlank b = true from hb b rfl]
  have hrun : ∀ b ∈ t, (!isBlank b) = true := fun b h => by simp [ht b h]
  rw [takeToken_nil, List.dropWhile_append_of_pos hw, hstart, List.takeWhile_append_of_pos hrun,
    List.dropWhile_append_of_pos hrun, hstop.1, hstop.2, List.append_nil]

/-! ## Steady streams -/

namespace Reader

/-- A stream of non-empty buffers and interrupted reads. -/
def Steady (r : Reader) : Prop :=
  ∀ c ∈ r, match c with
    | .data bs => bs ≠ []
    | .fault fault => fault.kind = .interrupted

theorem bytes_data (bs : Bytes) (r : Reader) : bytes (.data bs :: r) = bs ++ bytes r := rfl

theorem bytes_fault (fault : Fault) (r : Reader) : bytes (.fault fault :: r) = bytes r := rfl

theorem Steady.tail {c : Chunk} {r : Reader} (h : Steady (c :: r)) : Steady r :=
  fun c' hc => h c' (List.mem_cons_of_mem _ hc)

theorem steady_nil : Steady [] := nofun

theorem Steady.data {bs : Bytes} {r : Reader} (h : Steady r) (hbs : bs ≠ []) :
    Steady (.data bs :: r) :=
  List.forall_mem_cons.mpr ⟨hbs, h⟩

theorem Steady.interrupted {fault : Fault} {r : Reader} (h : Steady r)
    (hk : fault.kind = .interrupted) : Steady (.fault fault :: r) :=
  List.forall_mem_cons.mpr ⟨hk, h⟩

/-- A stream that delivers the texts, one buffer each. -/
def ofTexts (texts : List String) : Reader := texts.map fun text => .data (Bytes.ofString text)

theorem steady_ofTexts {texts : List String} (h : ∀ text ∈ texts, Bytes.ofString text ≠ []) :
    Steady (ofTexts texts) := by
  intro c hc
  obtain ⟨text, ht, rfl⟩ := List.mem_map.mp hc
  exact h text ht

/-- Cut into buffers, the bytes all arrive. -/
theorem steady_buffered (size : Nat) (bs : Bytes) : Steady (buffered size bs) := by
  induction bs using buffered.induct size with
  | case1 bs h =>
    rw [buffered, dif_pos h]
    exact steady_nil
  | case2 bs h ih =>
    rw [buffered, dif_neg h]
    rw [not_or] at h
    refine ih.data ?_
    simpa using h

theorem bytes_buffered {size : Nat} (hsize : size ≠ 0) (bs : Bytes) :
    bytes (buffered size bs) = bs := by
  induction bs using buffered.induct size with
  | case1 bs h =>
    rw [buffered, dif_pos h]
    exact (h.resolve_left hsize).symm
  | case2 bs h ih => rw [buffered, dif_neg h, bytes_data, ih, List.take_append_drop]

theorem steady_pushBack {rest : Bytes} {r : Reader} (h : Steady r) : Steady (pushBack rest r) := by
  unfold pushBack
  split
  · exact h
  · rename_i hrest
    exact h.data (by simpa using hrest)

theorem bytes_pushBack (rest : Bytes) (r : Reader) : bytes (pushBack rest r) = rest ++ bytes r := by
  unfold pushBack
  split
  · rename_i h
    rw [List.isEmpty_iff.mp h, List.nil_append]
  · rfl

variable {token : Bytes} {r : Reader}

/-- **Reading a token does not depend on how the bytes are cut.** A token that is short enough is
taken off the bytes of the stream; if there is none, the channel is closed. -/
theorem continueToken_of_steady (channel : String) (hr : Steady r)
    (hlen : (takeToken token (bytes r)).1.length ≤ maxTokenLength) :
    ((takeToken token (bytes r)).1 = [] →
      continueToken channel token r = (.error (.peerClosed channel), [])) ∧
      ((takeToken token (bytes r)).1 ≠ [] → ∃ r', Steady r' ∧
        bytes r' = (takeToken token (bytes r)).2 ∧
        continueToken channel token r = (.ok (takeToken token (bytes r)).1, r')) := by
  induction r generalizing token with
  | nil =>
    have hnil : takeToken token (bytes []) = (token, []) := by
      simp [takeToken, bytes]
    rw [hnil]
    constructor
    · intro h
      rw [continueToken, tokenAtEnd, if_pos (by simpa using h)]
    · intro h
      refine ⟨[], hr, rfl, ?_⟩
      rw [continueToken, tokenAtEnd, if_neg (by simpa using h)]
  | cons c r ih =>
    cases c with
    | fault fault =>
      have hk : fault.kind = .interrupted := hr _ List.mem_cons_self
      rw [bytes_fault] at hlen ⊢
      rw [continueToken, if_pos hk]
      exact ih hr.tail hlen
    | data buffer =>
      have hne : buffer ≠ [] := hr _ List.mem_cons_self
      rw [bytes_data] at hlen ⊢
      have hshort : ¬ maxTokenLength < (takeToken token buffer).1.length := by
        have := length_fst_takeToken_append_le token buffer (bytes r)
        omega
      rw [continueToken, if_neg (by simpa using hne)]
      simp only [hshort, if_false]
      by_cases hrest : (takeToken token buffer).2 = []
      · rw [if_pos (by simpa using hrest)]
        rw [takeToken_append_of_no_rest hrest] at hlen ⊢
        exact ih hr.tail hlen
      · rw [if_neg (by simpa using hrest)]
        rw [takeToken_append_of_rest hrest]
        exact ⟨fun h => absurd h (fst_takeToken_ne_nil hrest),
          fun _ => ⟨_, steady_pushBack hr.tail, bytes_pushBack _ _, rfl⟩⟩

/-- A token that gets too long is refused, in whichever buffer it passes the limit. -/
theorem continueToken_of_long (channel : String) (hr : Steady r)
    (htoken : token.length ≤ maxTokenLength)
    (hlen : maxTokenLength < (takeToken token (bytes r)).1.length) :
    ∃ r', continueToken channel token r = (.error (.tokenTooLong channel), r') := by
  induction r generalizing token with
  | nil =>
    have hnil : takeToken token (bytes []) = (token, []) := by
      simp [takeToken, bytes]
    rw [hnil] at hlen
    exact absurd htoken (Nat.not_le.mpr hlen)
  | cons c r ih =>
    cases c with
    | fault fault =>
      have hk : fault.kind = .interrupted := hr _ List.mem_cons_self
      rw [continueToken, if_pos hk]
      exact ih hr.tail htoken hlen
    | data buffer =>
      have hne : buffer ≠ [] := hr _ List.mem_cons_self
      rw [bytes_data] at hlen
      rw [continueToken, if_neg (by simpa using hne)]
      simp only
      by_cases hover : maxTokenLength < (takeToken token buffer).1.length
      · rw [if_pos hover]
        exact ⟨_, rfl⟩
      rw [if_neg hover]
      by_cases hrest : (takeToken token buffer).2 = []
      · rw [if_pos (by simpa using hrest)]
        rw [takeToken_append_of_no_rest hrest] at hlen
        exact ih hr.tail (Nat.not_lt.mp hover) hlen
      · rw [takeToken_append_of_rest hrest] at hlen
        exact absurd hlen hover

theorem readToken_of_no_tokens (channel : String) (hr : Steady r) (h : tokens (bytes r) = []) :
    readToken channel r = (.error (.peerClosed channel), []) := by
  rcases blank_or_token (bytes r) with hw | ⟨w, t, rest, hsplit, hw, ht, hb⟩
  · have htake := takeToken_blanks hw
    exact (continueToken_of_steady channel hr (by rw [htake]; exact Nat.zero_le _)).1 (by rw [htake])
  · rw [hsplit, tokens_append_blanks hw, tokens_append_token ht hb] at h
    cases h

section Split

variable {w t rest : Bytes}

theorem takeToken_of_split (hsplit : bytes r = w ++ (t ++ rest)) (hw : ∀ b ∈ w, isBlank b = true)
    (ht : IsToken t) (hb : AtBreak rest) : takeToken [] (bytes r) = (t, rest) := by
  rw [hsplit, takeToken_token hw ht hb]

/-- A short token is taken off, and the stream goes on right behind it. -/
theorem readToken_of_split (channel : String) (hr : Steady r) (hsplit : bytes r = w ++ (t ++ rest))
    (hw : ∀ b ∈ w, isBlank b = true) (ht : IsToken t) (hb : AtBreak rest)
    (hlen : t.length ≤ maxTokenLength) :
    ∃ r', Steady r' ∧ bytes r' = rest ∧ readToken channel r = (.ok t, r') := by
  have htake := takeToken_of_split hsplit hw ht hb
  have hread := (continueToken_of_steady channel hr (by rw [htake]; exact hlen)).2
    (by rw [htake]; exact ht.1)
  rwa [htake] at hread

/-- A long token is refused. -/
theorem readToken_of_split_of_long (channel : String) (hr : Steady r)
    (hsplit : bytes r = w ++ (t ++ rest)) (hw : ∀ b ∈ w, isBlank b = true) (ht : IsToken t)
    (hb : AtBreak rest) (hlen : maxTokenLength < t.length) :
    ∃ r', readToken channel r = (.error (.tokenTooLong channel), r') := by
  refine continueToken_of_long channel hr (Nat.zero_le _) ?_
  rwa [takeToken_of_split hsplit hw ht hb]

end Split

theorem readToken_of_short (channel : String) {t : Bytes} {ts : List Bytes} (hr : Steady r)
    (h : tokens (bytes r) = t :: ts) (hlen : t.length ≤ maxTokenLength) :
    ∃ r', Steady r' ∧ TokensThen (bytes r) [t] (bytes r') ∧ readToken channel r = (.ok t, r') := by
  obtain ⟨w, rest, hsplit, hw, ht, hb, -⟩ := exists_split_of_tokens h
  obtain ⟨r', hr', hbytes, hread⟩ := readToken_of_split channel hr hsplit hw ht hb hlen
  refine ⟨r', hr', ?_, hread⟩
  rw [hsplit, hbytes]
  exact .token hw ht hb (.nil rest)

theorem readToken_of_long (channel : String) {t : Bytes} {ts : List Bytes} (hr : Steady r)
    (h : tokens (bytes r) = t :: ts) (hlen : maxTokenLength < t.length) :
    ∃ r', readToken channel r = (.error (.tokenTooLong channel), r') := by
  obtain ⟨w, rest, hsplit, hw, ht, hb, -⟩ := exists_split_of_tokens h
  exact readToken_of_split_of_long channel hr hsplit hw ht hb hlen

theorem readToken_of_tokens (channel : String) {t : Bytes} {ts : List Bytes} (hr : Steady r)
    (h : tokens (bytes r) = t :: ts) (hlen : t.length ≤ maxTokenLength) :
    ∃ r', Steady r' ∧ tokens (bytes r') = ts ∧ readToken channel r = (.ok t, r') := by
  obtain ⟨r', hr', hthen, hread⟩ := readToken_of_short channel hr h hlen
  have htokens := hthen.tokens_eq
  rw [h] at htokens
  exact ⟨r', hr', (List.cons.inj htokens).2.symm, hread⟩

theorem eq_of_tokenAtEnd {channel : String} {token t : Bytes}
    (h : tokenAtEnd channel token = .ok t) : t = token := by
  unfold tokenAtEnd at h
  split at h
  · cases h
  · exact (Except.ok.inj h).symm

/-- The bytes of a token are not blank, whatever else happens to the stream. -/
theorem not_isBlank_of_continueToken {channel : String} {token t : Bytes} {r r' : Reader}
    (h : continueToken channel token r = (.ok t, r')) (htoken : ∀ b ∈ token, isBlank b = false) :
    ∀ b ∈ t, isBlank b = false := by
  induction r generalizing token with
  | nil =>
    rw [continueToken] at h
    exact eq_of_tokenAtEnd (congrArg Prod.fst h) ▸ htoken
  | cons c r ih =>
    cases c with
    | fault fault =>
      rw [continueToken] at h
      split at h
      · exact ih h htoken
      · cases h
    | data buffer =>
      have htake : ∀ b ∈ (takeToken token buffer).1, isBlank b = false := by
        intro b hb
        rcases List.mem_append.mp hb with hb | hb
        · exact htoken b hb
        · simpa using List.mem_takeWhile_imp hb
      rw [continueToken] at h
      split at h
      · exact eq_of_tokenAtEnd (congrArg Prod.fst h) ▸ htoken
      simp only at h
      split at h
      · cases h
      split at h
      · exact ih h htake
      · cases h
        exact htake

/-- Whatever a stream delivers, what is read from it is a token. -/
theorem isToken_of_readToken {channel : String} {t : Bytes} {r r' : Reader}
    (h : readToken channel r = (.ok t, r')) : IsToken t :=
  ⟨(size_continueToken h).1, not_isBlank_of_continueToken h nofun⟩

end Reader

/-! ## What a writer accepts -/

namespace Writer

/-- A writer that never fails. -/
def Reliable (w : Writer) : Prop := w.room = none ∧ w.flushFault = none

theorem writeFlushing_of_reliable {w : Writer} (hw : w.Reliable) (pieces : List Bytes) :
    w.writeFlushing pieces = (.ok (), { w with
      written := w.written ++ pieces.flatten
      flushed := (w.written ++ pieces.flatten).length }) := by
  induction pieces generalizing w with
  | nil => rw [writeFlushing, flush, hw.2, List.flatten_nil, List.append_nil]
  | cons bs rest ih =>
    have hwrite : w.write bs = (.ok (), { w with written := w.written ++ bs }) := by
      rw [write, hw.1]
    have hrest : Reliable { w with written := w.written ++ bs } := hw
    rw [writeFlushing, hwrite, List.flatten_cons, ← List.append_assoc]
    exact ih hrest

/-- Nothing that has been written is held back. -/
def Flushed (w : Writer) : Prop := w.flushed = w.written.length

/-- A flush writes nothing, and passes everything on if it does not fail. -/
theorem flush_passes (w : Writer) :
    w.flush.2.written = w.written ∧ (w.flush.1 = .ok () → w.flush.2.Flushed) := by
  unfold flush
  split
  · exact ⟨rfl, fun _ => rfl⟩
  · exact ⟨rfl, fun h => by cases h⟩
  · exact ⟨rfl, fun _ => rfl⟩

theorem write_accepts (bs : Bytes) (w : Writer) : ∃ p, p <+: bs ∧
    (w.write bs).2.written = w.written ++ p ∧ ((w.write bs).1 = .ok () → p = bs) := by
  unfold write
  split
  · exact ⟨bs, List.prefix_rfl, rfl, fun _ => rfl⟩
  · rename_i n _
    refine ⟨bs.take n, List.take_prefix n bs, rfl, fun h => List.take_of_length_le ?_⟩
    by_contra hn
    simp [hn] at h

/-- **A writer accepts a prefix of what is sent, and all of it, flushed, if nothing fails.** -/
theorem writeFlushing_accepts (pieces : List Bytes) (w : Writer) : ∃ p, p <+: pieces.flatten ∧
    (w.writeFlushing pieces).2.written = w.written ++ p ∧
    ((w.writeFlushing pieces).1 = .ok () →
      p = pieces.flatten ∧ (w.writeFlushing pieces).2.Flushed) := by
  induction pieces generalizing w with
  | nil =>
    obtain ⟨hwritten, hflushed⟩ := flush_passes w
    refine ⟨[], List.prefix_rfl, ?_, fun h => ⟨rfl, hflushed h⟩⟩
    rw [List.append_nil]
    exact hwritten
  | cons bs rest ih =>
    obtain ⟨p, hp, hwritten, hall⟩ := write_accepts bs w
    rw [writeFlushing, List.flatten_cons]
    cases hres : w.write bs with
    | mk result w' =>
      rw [hres] at hwritten hall
      cases result with
      | error fault =>
        exact ⟨p, hp.trans (List.prefix_append _ _), hwritten, fun h => by cases h⟩
      | ok =>
        obtain rfl : p = bs := hall rfl
        obtain ⟨q, hq, hwritten', hall'⟩ := ih w'
        refine ⟨p ++ q, (List.prefix_append_right_inj p).mpr hq, ?_, ?_⟩
        · rw [← List.append_assoc, ← hwritten]
          exact hwritten'
        · intro h
          obtain ⟨rfl, hflush⟩ := hall' h
          exact ⟨rfl, hflush⟩

theorem send_of_reliable {w : Writer} (hw : w.Reliable) (channel : String) (pieces : List Bytes) :
    w.send channel pieces = (.ok (), { w with
      written := w.written ++ pieces.flatten
      flushed := (w.written ++ pieces.flatten).length }) := by
  rw [send, writeFlushing_of_reliable hw]
  rfl

theorem send_accepts (channel : String) (pieces : List Bytes) (w : Writer) :
    ∃ p, p <+: pieces.flatten ∧ (w.send channel pieces).2.written = w.written ++ p ∧
      ((w.send channel pieces).1 = .ok () →
        p = pieces.flatten ∧ (w.send channel pieces).2.Flushed) := by
  obtain ⟨p, hp, hwritten, hall⟩ := writeFlushing_accepts pieces w
  refine ⟨p, hp, hwritten, fun h => hall ?_⟩
  rw [send] at h
  cases hres : w.writeFlushing pieces with
  | mk result w' =>
    rw [hres] at h
    cases result with
    | error fault => cases h
    | ok => rfl

/-- The bytes of a line. -/
def lineBytes (line : String) : Bytes := Bytes.ofString line ++ [10]

theorem sendLine_of_reliable {w : Writer} (hw : w.Reliable) (channel line : String) :
    w.sendLine channel line = (.ok (), { w with
      written := w.written ++ lineBytes line
      flushed := (w.written ++ lineBytes line).length }) := by
  rw [sendLine, send_of_reliable hw]
  simp [lineBytes]

theorem sendLine_accepts (channel line : String) (w : Writer) : ∃ p, p <+: lineBytes line ∧
    (w.sendLine channel line).2.written = w.written ++ p ∧
    ((w.sendLine channel line).1 = .ok () →
      p = lineBytes line ∧ (w.sendLine channel line).2.Flushed) := by
  have hflat : [Bytes.ofString line, [10]].flatten = lineBytes line := by simp [lineBytes]
  rw [← hflat]
  exact send_accepts channel [Bytes.ofString line, [10]] w

theorem sendCommand_of_reliable {w : Writer} (hw : w.Reliable) (channel command : String)
    (payload : Bytes) :
    w.sendCommand channel command payload = (.ok (), { w with
      written := w.written ++ commandLine command payload
      flushed := (w.written ++ commandLine command payload).length }) := by
  rw [sendCommand, send_of_reliable hw, List.flatten_singleton]

theorem sendCommand_accepts (channel command : String) (payload : Bytes) (w : Writer) :
    ∃ p, p <+: commandLine command payload ∧
      (w.sendCommand channel command payload).2.written = w.written ++ p ∧
      ((w.sendCommand channel command payload).1 = .ok () →
        p = commandLine command payload ∧ (w.sendCommand channel command payload).2.Flushed) := by
  have hflat : [commandLine command payload].flatten = commandLine command payload :=
    List.flatten_singleton
  rw [← hflat]
  exact send_accepts channel [commandLine command payload] w

end Writer

end Referee
