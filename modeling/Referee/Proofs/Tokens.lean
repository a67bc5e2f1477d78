import Mathlib.Data.List.DropRight
import Mathlib.Data.List.TakeWhile
import Referee.Token

/-!
# Tokens are the maximal runs

`MaximalRuns bs ts` says which tokens a byte string has without saying how they are found: blanks,
a run of bytes that are not blank, then the end or a blank, and so on. `maximalRuns_iff` states
that `tokens` finds exactly these runs. `tokens_append_token` and `tokens_append_blanks` take one
token or a stretch of blanks off the front; the rest follows from them. `TokensThen bs ts rest`
says where the first tokens of a byte string end and what is left behind them.
-/

namespace Referee

/-- A non-empty run of bytes that are not blank. -/
def IsToken (t : Bytes) : Prop := t ≠ [] ∧ ∀ b ∈ t, isBlank b = false

instance (t : Bytes) : Decidable (IsToken t) :=
  decidable_of_iff (t.isEmpty = false ∧ t.all (!isBlank ·) = true) (by simp [IsToken])

/-- The bytes are at their end or go on with a blank. -/
def AtBreak (bs : Bytes) : Prop := ∀ b ∈ bs.head?, isBlank b = true

/-- The maximal runs of bytes that are not blank, in order. -/
inductive MaximalRuns : Bytes → List Bytes → Prop where
  | blanks {w : Bytes} (hw : ∀ b ∈ w, isBlank b = true) : MaximalRuns w []
  | token {w t rest : Bytes} {ts : List Bytes} (hw : ∀ b ∈ w, isBlank b = true) (ht : IsToken t)
      (hb : AtBreak rest) (h : MaximalRuns rest ts) : MaximalRuns (w ++ (t ++ rest)) (t :: ts)

/-! ## Splitting at the blanks -/

theorem atBreak_dropWhile (bs : Bytes) : AtBreak (bs.dropWhile (!isBlank ·)) := by
  intro b hb
  have := List.head?_dropWhile_not (fun b => !isBlank b) bs
  rw [Option.mem_def.mp hb] at this
  simpa using this

theorem atBreak_cons {b : UInt8} (hb : isBlank b = true) (bs : Bytes) : AtBreak (b :: bs) := by
  intro c hc
  obtain rfl : b = c := by simpa using hc
  exact hb

theorem isToken_takeWhile {bs : Bytes} {b : UInt8} (hb : b ∈ bs.head?) (hn : isBlank b = false) :
    IsToken (bs.takeWhile (!isBlank ·)) := by
  constructor
  · cases bs with
    | nil => simp at hb
    | cons c cs =>
      obtain rfl : c = b := by simpa using hb
      simp [hn]
  · intro c hc
    simpa using List.mem_takeWhile_imp hc

theorem tokens_append_blanks {w : Bytes} (hw : ∀ b ∈ w, isBlank b = true) (bs : Bytes) :
    tokens (w ++ bs) = tokens bs := by
  induction w with
  | nil => rfl
  | cons b w ih =>
    rw [List.cons_append, tokens_blank (hw b List.mem_cons_self)]
    exact ih fun c hc => hw c (List.mem_cons_of_mem _ hc)

theorem tokens_append_token {t rest : Bytes} (ht : IsToken t) (hb : AtBreak rest) :
    tokens (t ++ rest) = t :: tokens rest := by
  obtain ⟨hne, ht⟩ := ht
  cases rest with
  | nil => simp [tokens, List.splitOnP_eq_singleton ht, hne]
  | cons b rest =>
    have hb : isBlank b = true := hb b rfl
    rw [tokens_blank hb]
    unfold tokens
    rw [List.splitOnP_append_cons_of_forall_mem ht b hb, List.filter_cons, if_pos (by simpa using hne)]

/-- A blank parts the tokens on its two sides. -/
theorem tokens_append_blank_append {b : UInt8} (hb : isBlank b = true) (as bs : Bytes) :
    tokens (as ++ b :: bs) = tokens as ++ tokens bs := by
  rw [tokens, List.splitOnP_append_cons _ _ hb, List.filter_append]
  rfl

/-- A stretch of blanks parts the tokens on its two sides. -/
theorem tokens_append_blanks_append {w : Bytes} (hne : w ≠ []) (hw : ∀ b ∈ w, isBlank b = true)
    (as bs : Bytes) : tokens (as ++ (w ++ bs)) = tokens as ++ tokens bs := by
  obtain ⟨b, w, rfl⟩ := List.exists_cons_of_ne_nil hne
  obtain ⟨hb, hw⟩ := List.forall_mem_cons.mp hw
  rw [List.cons_append, tokens_append_blank_append hb, tokens_append_blanks hw]

theorem tokens_of_forall_blank {w : Bytes} (hw : ∀ b ∈ w, isBlank b = true) : tokens w = [] := by
  simpa using tokens_append_blanks hw []

/-! ## The runs and the tokens agree -/

theorem MaximalRuns.eq_tokens {bs : Bytes} {ts : List Bytes} (h : MaximalRuns bs ts) :
    ts = tokens bs := by
  induction h with
  | blanks hw => rw [tokens_of_forall_blank hw]
  | token hw ht hb _ ih => rw [tokens_append_blanks hw, tokens_append_token ht hb, ih]

/-- A byte string is blank, or it is blanks, a token and what comes after the token. -/
theorem blank_or_token (bs : Bytes) : (∀ b ∈ bs, isBlank b = true) ∨
    ∃ w t rest, bs = w ++ (t ++ rest) ∧ (∀ b ∈ w, isBlank b = true) ∧ IsToken t ∧ AtBreak rest := by
  cases hd : bs.dropWhile isBlank with
  | nil => exact .inl (List.dropWhile_eq_nil_iff.mp hd)
  | cons b cs =>
    have hn : isBlank b = false := by
      have := List.head_dropWhile_not isBlank (l := bs) (by simp [hd])
      simpa [hd] using this
    refine .inr ⟨bs.takeWhile isBlank, (b :: cs).takeWhile (!isBlank ·),
      (b :: cs).dropWhile (!isBlank ·), ?_, fun c hc => List.mem_takeWhile_imp hc,
      isToken_takeWhile rfl hn, atBreak_dropWhile _⟩
    rw [List.takeWhile_append_dropWhile, ← hd, List.takeWhile_append_dropWhile]

/-- Every byte string falls into blanks and runs. -/
theorem maximalRuns_tokens (bs : Bytes) : MaximalRuns bs (tokens bs) := by
  induction hn : bs.length using Nat.strong_induction_on generalizing bs with
  | _ n ih =>
    subst hn
    rcases blank_or_token bs with hw | ⟨w, t, rest, rfl, hw, ht, hb⟩
    · rw [tokens_of_forall_blank hw]
      exact .blanks hw
    · have hpos := List.length_pos_iff.mpr ht.1
      have hlt : rest.length < (w ++ (t ++ rest)).length := by
        simp only [List.length_append]
        omega
      rw [tokens_append_blanks hw, tokens_append_token ht hb]
      exact .token hw ht hb (ih rest.length hlt rest rfl)

/-- **`tokens` finds exactly the maximal runs.** -/
theorem maximalRuns_iff {bs : Bytes} {ts : List Bytes} : MaximalRuns bs ts ↔ ts = tokens bs :=
  ⟨MaximalRuns.eq_tokens, fun h => h ▸ maximalRuns_tokens bs⟩

theorem MaximalRuns.isToken {bs t : Bytes} {ts : List Bytes} (h : MaximalRuns bs ts) (ht : t ∈ ts) :
    IsToken t := by
  induction h with
  | blanks hw => cases ht
  | token hw ht' hb _ ih =>
    rcases List.mem_cons.mp ht with rfl | ht
    · exact ht'
    · exact ih ht

theorem isToken_of_mem_tokens {bs t : Bytes} (h : t ∈ tokens bs) : IsToken t :=
  (maximalRuns_tokens bs).isToken h

/-! ## What the first tokens leave -/

/-- The bytes begin with the tokens `ts`, and `rest` is what comes right after the last of them. -/
inductive TokensThen : Bytes → List Bytes → Bytes → Prop where
  | nil (bs : Bytes) : TokensThen bs [] bs
  | token {w t rest left : Bytes} {ts : List Bytes} (hw : ∀ b ∈ w, isBlank b = true) (ht : IsToken t)
      (hb : AtBreak rest) (h : TokensThen rest ts left) : TokensThen (w ++ (t ++ rest)) (t :: ts) left

theorem TokensThen.tokens_eq {bs rest : Bytes} {ts : List Bytes} (h : TokensThen bs ts rest) :
    tokens bs = ts ++ tokens rest := by
  induction h with
  | nil => rfl
  | token hw ht hb _ ih => rw [tokens_append_blanks hw, tokens_append_token ht hb, ih, List.cons_append]

theorem TokensThen.trans {bs mid rest : Bytes} {ts us : List Bytes} (h : TokensThen bs ts mid)
    (h' : TokensThen mid us rest) : TokensThen bs (ts ++ us) rest := by
  induction h with
  | nil => exact h'
  | token hw ht hb _ ih => exact .token hw ht hb (ih h')

theorem TokensThen.tokens_left {bs rest : Bytes} {n : Nat}
    (h : TokensThen bs ((tokens bs).take n) rest) : tokens rest = (tokens bs).drop n := by
  have heq : (tokens bs).take n ++ (tokens bs).drop n = (tokens bs).take n ++ tokens rest :=
    (List.take_append_drop n _).trans h.tokens_eq
  exact (List.append_cancel_left heq).symm

/-- The first token comes behind blanks and in front of a break. -/
theorem exists_split_of_tokens {bs t : Bytes} {ts : List Bytes} (h : tokens bs = t :: ts) :
    ∃ w rest, bs = w ++ (t ++ rest) ∧ (∀ b ∈ w, isBlank b = true) ∧ IsToken t ∧ AtBreak rest ∧
      tokens rest = ts := by
  rcases blank_or_token bs with hw | ⟨w, t', rest, rfl, hw, ht, hb⟩
  · rw [tokens_of_forall_blank hw] at h
    cases h
  · rw [tokens_append_blanks hw, tokens_append_token ht hb] at h
    obtain ⟨rfl, rfl⟩ := List.cons.inj h
    exact ⟨w, rest, rfl, hw, ht, hb, rfl⟩

/-! ## Tokens with a blank behind them -/

/-- The tokens in front of the last blank. Whatever follows the bytes, these are complete. -/
def delimitedTokens (bs : Bytes) : List Bytes := tokens (bs.rdropWhile (!isBlank ·))

section LastBlank

variable {p : UInt8 → Bool} (front : Bytes) {mid tail : Bytes}

theorem rdropWhile_append_of_pos (h : ∀ b ∈ tail, p b = true) :
    (front ++ tail).rdropWhile p = front.rdropWhile p := by
  rw [List.rdropWhile, List.reverse_append, List.dropWhile_append_of_pos (by simpa using h)]
  rfl

theorem rdropWhile_eq_self_of_append (hne : mid ≠ [])
    (h : (front ++ mid).rdropWhile p = front ++ mid) : mid.rdropWhile p = mid := by
  rw [List.rdropWhile_eq_self_iff] at h ⊢
  intro hne'
  have hlast := h (List.append_ne_nil_of_right_ne_nil front hne)
  rwa [List.getLast_append_of_ne_nil _ hne] at hlast

end LastBlank

/-- The first of these tokens comes in front of a blank, and the others are those behind it. -/
theorem exists_split_of_delimitedTokens {bs t : Bytes} {ts : List Bytes}
    (h : delimitedTokens bs = t :: ts) :
    ∃ w rest, bs = w ++ (t ++ rest) ∧ (∀ b ∈ w, isBlank b = true) ∧ IsToken t ∧ AtBreak rest ∧
      rest ≠ [] ∧ delimitedTokens rest = ts := by
  obtain ⟨w, mid, hfront, hw, ht, hb, hts⟩ := exists_split_of_tokens h
  have hself : (w ++ (t ++ mid)).rdropWhile (!isBlank ·) = w ++ (t ++ mid) := by
    rw [← hfront, List.rdropWhile_idempotent]
  have hmid : mid ≠ [] := by
    rintro rfl
    -- the token would be cut off too
    rw [List.append_nil, rdropWhile_append_of_pos w fun b hb => by simp [ht.2 b hb]] at hself
    have hle := (List.rdropWhile_prefix (!isBlank ·) w).length_le
    rw [hself, List.length_append] at hle
    have hpos := List.length_pos_iff.mpr ht.1
    omega
  have hmidself : mid.rdropWhile (!isBlank ·) = mid := by
    refine rdropWhile_eq_self_of_append (w ++ t) hmid ?_
    rwa [List.append_assoc]
  obtain ⟨tail, htail, hrun⟩ : ∃ tail, bs = w ++ (t ++ (mid ++ tail)) ∧
      ∀ b ∈ tail, (!isBlank b) = true := by
    refine ⟨bs.rtakeWhile (!isBlank ·), ?_,
      fun b hb => List.mem_rtakeWhile_imp (p := fun b => !isBlank b) hb⟩
    rw [← List.append_assoc t, ← List.append_assoc w, ← hfront, List.rdropWhile_append_rtakeWhile]
  refine ⟨w, mid ++ tail, htail, hw, ht, ?_, by simp [hmid], ?_⟩
  · intro b hb'
    rw [List.head?_append_of_ne_nil _ hmid] at hb'
    exact hb b hb'
  · rw [delimitedTokens, rdropWhile_append_of_pos mid hrun, hmidself, hts]

end Referee
