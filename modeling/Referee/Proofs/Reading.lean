import Referee.Proofs.Channel

/-!
# Reading token after token

`Reader.afterReads` is a stream after a number of calls for a token. Over a steady stream each call
takes the next token off the front, until one is too long or there are none
(`readToken_afterReads`): the calls agree with `tokens` on the bytes of the stream, and nothing
depends on the buffers. No call asks for more than it needs: a stream whose bytes go on behind the
token is read as if nothing came after them (`readToken_append`).
-/

namespace Referee.Reader

/-- The stream after `n` calls for a token, whatever they have come to. -/
def afterReads (channel : String) (r : Reader) : Nat → Reader
  | 0 => r
  | n + 1 => (readToken channel (r.afterReads channel n)).2

/-! ## Call after call -/

section Calls

variable (channel : String) {r : Reader} {n : Nat}

/-- Every call takes one short token off the front. -/
theorem tokensThen_afterReads (hr : r.Steady) (hn : n ≤ (tokens r.bytes).length)
    (hshort : ∀ t ∈ (tokens r.bytes).take n, t.length ≤ maxTokenLength) :
    Steady (r.afterReads channel n) ∧
      TokensThen r.bytes ((tokens r.bytes).take n) (bytes (r.afterReads channel n)) := by
  induction n with
  | zero => exact ⟨hr, .nil _⟩
  | succ n ih =>
    obtain ⟨t, ht⟩ : ∃ t, (tokens r.bytes)[n]? = some t := ⟨_, List.getElem?_eq_getElem hn⟩
    have hsnoc : (tokens r.bytes).take (n + 1) = (tokens r.bytes).take n ++ [t] := by
      rw [List.take_add_one, ht, Option.toList_some]
    rw [hsnoc] at hshort ⊢
    obtain ⟨hsteady, hthen⟩ := ih (by omega) fun s hs => hshort s (List.mem_append_left _ hs)
    have hnext : tokens (bytes (r.afterReads channel n)) = t :: (tokens r.bytes).drop (n + 1) := by
      rw [hthen.tokens_left, List.drop_eq_getElem?_toList_append, ht, Option.toList_some,
        List.singleton_append]
    obtain ⟨r', hsteady', hthen', hread⟩ := readToken_of_short channel hsteady hnext
      (hshort t (List.mem_append_right _ List.mem_cons_self))
    rw [afterReads, hread]
    exact ⟨hsteady', hthen.trans hthen'⟩

/-- A stream with no tokens left stays at its end. -/
theorem readToken_afterReads_of_no_tokens (hr : Steady (r.afterReads channel n))
    (h : tokens (bytes (r.afterReads channel n)) = []) {i : Nat} (hi : n ≤ i) :
    readToken channel (r.afterReads channel i) = (.error (.peerClosed channel), []) := by
  induction i, hi using Nat.le_induction with
  | base => exact readToken_of_no_tokens channel hr h
  | succ i _ ih =>
    rw [afterReads, ih]
    rfl

end Calls

/-- **The calls return the tokens, however the bytes are cut.** Over a stream that delivers `d`,
the call number `i` returns token number `i` and leaves what comes right behind it, provided that
no token up to there is too long; a token that is too long is refused; after the last token the
channel is closed. -/
theorem readToken_afterReads (channel : String) {d : Bytes} {r : Reader} (hr : r.Steady)
    (hd : r.bytes = d) :
    (∀ i t, (tokens d)[i]? = some t →
      (∀ s ∈ (tokens d).take i, s.length ≤ maxTokenLength) →
      (t.length ≤ maxTokenLength → ∃ r',
        readToken channel (r.afterReads channel i) = (.ok t, r') ∧
          TokensThen d ((tokens d).take (i + 1)) r'.bytes) ∧
      (maxTokenLength < t.length → ∃ r',
        readToken channel (r.afterReads channel i) = (.error (.tokenTooLong channel), r'))) ∧
    ((∀ t ∈ tokens d, t.length ≤ maxTokenLength) → ∀ i, (tokens d).length ≤ i →
      readToken channel (r.afterReads channel i) = (.error (.peerClosed channel), [])) := by
  subst hd
  constructor
  · intro i t ht hshort
    obtain ⟨hi, rfl⟩ := List.getElem?_eq_some_iff.mp ht
    obtain ⟨hsteady, hthen⟩ := tokensThen_afterReads channel hr hi.le hshort
    have hnext := hthen.tokens_left
    rw [List.drop_eq_getElem_cons hi] at hnext
    constructor
    · intro hlen
      obtain ⟨r', -, hthen', hread⟩ := readToken_of_short channel hsteady hnext hlen
      refine ⟨r', hread, ?_⟩
      rw [List.take_add_one, ht]
      exact hthen.trans hthen'
    · exact readToken_of_long channel hsteady hnext
  · intro hshort i hi
    obtain ⟨hsteady, hthen⟩ := tokensThen_afterReads channel hr le_rfl
      fun t ht => hshort t (List.mem_of_mem_take ht)
    refine readToken_afterReads_of_no_tokens channel hsteady ?_ hi
    rw [hthen.tokens_left, List.drop_length]

/-- A token that goes on behind an interrupted read, and one that passes the limit with the last
buffer. -/
theorem readToken_afterReads_cut :
    let r : Reader := [.data (Bytes.ofString "\n a"), .fault ⟨.interrupted, ""⟩,
      .data (Bytes.ofString "b c")]
    let long : Reader := [.data (List.replicate maxTokenLength 120), .data [120]]
    (∃ r', readToken "peer" (r.afterReads "peer" 0) = (.ok (Bytes.ofString "ab"), r') ∧
      TokensThen (Bytes.ofString "\n ab c") [Bytes.ofString "ab"] (bytes r')) ∧
    readToken "peer" (r.afterReads "peer" 2) = (.error (.peerClosed "peer"), []) ∧
    ∃ r', readToken "peer" (long.afterReads "peer" 0) = (.error (.tokenTooLong "peer"), r') := by
  intro r long
  have hr : r.Steady := ((steady_nil.data (by decide)).interrupted rfl).data (by decide)
  have hlong : long.Steady := (steady_nil.data (by decide)).data
    (by rw [Ne, List.replicate_eq_nil_iff]; decide)
  have htokens : tokens (bytes long) = [List.replicate (maxTokenLength + 1) 120] := by
    have hbytes : bytes long = List.replicate (maxTokenLength + 1) 120 ++ [] := by
      rw [List.append_nil, List.replicate_succ']
      rfl
    have htoken : IsToken (List.replicate (maxTokenLength + 1) 120) :=
      ⟨by simp, fun b hb => by rw [List.eq_of_mem_replicate hb]; rfl⟩
    rw [hbytes, tokens_append_token htoken (fun b hb => by cases hb), tokens_nil]
  have h := readToken_afterReads "peer" hr rfl
  have hl := readToken_afterReads "peer" hlong rfl
  rw [htokens] at hl
  refine ⟨(h.1 0 _ rfl (by simp)).1 (by decide), h.2 (by decide) 2 (by decide), ?_⟩
  exact (hl.1 0 _ rfl (by simp)).2 (by rw [List.length_replicate]; exact Nat.lt_succ_self _)

/-! ## No call reads ahead -/

section Append

variable {channel : String} {token : Bytes} {p : Reader}

theorem pushBack_append (rest : Bytes) (r q : Reader) : pushBack rest (r ++ q) = pushBack rest r ++ q := by
  unfold pushBack
  split <;> rfl

/-- A token that ends in front of some of the bytes is read without a look at what comes after. -/
theorem continueToken_append (hp : Steady p) (h : (takeToken token (bytes p)).2 ≠ []) (q : Reader) :
    continueToken channel token (p ++ q) =
      ((continueToken channel token p).1, (continueToken channel token p).2 ++ q) := by
  induction p generalizing token with
  | nil =>
    simp [takeToken, bytes] at h
  | cons c p ih =>
    cases c with
    | fault fault =>
      have hk : fault.kind = .interrupted := hp _ List.mem_cons_self
      rw [List.cons_append, continueToken, if_pos hk, continueToken, if_pos hk]
      exact ih hp.tail h
    | data buffer =>
      have hne : ¬ buffer.isEmpty = true := by simpa using (hp _ List.mem_cons_self : buffer ≠ [])
      rw [bytes_data] at h
      rw [List.cons_append, continueToken, if_neg hne, continueToken, if_neg hne]
      simp only
      by_cases hover : maxTokenLength < (takeToken token buffer).1.length
      · rw [if_pos hover, if_pos hover, pushBack_append]
      rw [if_neg hover, if_neg hover]
      by_cases hrest : (takeToken token buffer).2 = []
      · have hrest' : (takeToken token buffer).2.isEmpty = true := by simpa using hrest
        rw [if_pos hrest', if_pos hrest']
        rw [takeToken_append_of_no_rest hrest] at h
        exact ih hp.tail h
      · have hrest' : ¬ (takeToken token buffer).2.isEmpty = true := by simpa using hrest
        rw [if_neg hrest', if_neg hrest', pushBack_append]

theorem steady_continueToken (hp : Steady p) : Steady (continueToken channel token p).2 := by
  induction p generalizing token with
  | nil => exact hp
  | cons c p ih =>
    cases c with
    | fault fault =>
      have hk : fault.kind = .interrupted := hp _ List.mem_cons_self
      rw [continueToken, if_pos hk]
      exact ih hp.tail
    | data buffer =>
      rw [continueToken]
      simp only
      split
      · exact hp.tail
      · split
        · exact steady_pushBack hp.tail
        · split
          · exact ih hp.tail
          · exact steady_pushBack hp.tail

theorem Steady.readToken {result : Except Failure Bytes} {r : Reader} (hp : Steady p)
    (h : readToken channel p = (result, r)) : Steady r := by
  have hr : Steady (Reader.readToken channel p).2 := steady_continueToken hp
  rwa [h] at hr

/-- **A token with a blank behind it is read without a look at what comes after.** What is left in
front of `q` holds the other tokens, unless the token was refused. -/
theorem readToken_append (channel : String) (hp : Steady p) (h : delimitedTokens (bytes p) ≠ [])
    (q : Reader) :
    readToken channel (p ++ q) = ((readToken channel p).1, (readToken channel p).2 ++ q) ∧
      ∀ t, (readToken channel p).1 = .ok t →
        delimitedTokens (bytes p) = t :: delimitedTokens (bytes (readToken channel p).2) := by
  obtain ⟨t, ts, hts⟩ := List.exists_cons_of_ne_nil h
  obtain ⟨w, rest, hsplit, hw, ht, hb, hrest, hleft⟩ := exists_split_of_delimitedTokens hts
  have htake := takeToken_of_split hsplit hw ht hb
  refine ⟨continueToken_append hp (by rw [htake]; exact hrest) q, ?_⟩
  intro t' hok
  rcases Nat.lt_or_ge maxTokenLength t.length with hlen | hlen
  · obtain ⟨r', hread⟩ := readToken_of_split_of_long channel hp hsplit hw ht hb hlen
    rw [hread] at hok
    cases hok
  · obtain ⟨r', -, hbytes, hread⟩ := readToken_of_split channel hp hsplit hw ht hb hlen
    rw [hread] at hok ⊢
    cases hok
    rw [hts, ← hleft, hbytes]

end Append

end Referee.Reader
