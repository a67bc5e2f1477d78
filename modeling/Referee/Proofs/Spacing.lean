import Referee.Proofs.Tokens

/-!
# Tokens and the blanks around them

A `Spacing` is a list of tokens with blanks in front of, between and behind them, at least one between
any two. Its text has exactly these tokens (`Spacing.tokens_text`), and every byte string is the text of
just one spacing (`Spacing.exists_text`, `Spacing.text_injective`).
-/

namespace Referee

/-- Space, tab, vertical tab, form feed, carriage return and line feed. -/
def blankBytes : Bytes := [32, 9, 11, 12, 13, 10]

/-- A stretch of blanks, perhaps empty. -/
def Blanks (w : Bytes) : Prop := ∀ b ∈ w, b ∈ blankBytes

/-- A non-empty byte string without blanks. -/
def Solid (t : Bytes) : Prop := t ≠ [] ∧ ∀ b ∈ t, b ∉ blankBytes

theorem isBlank_iff_mem {b : UInt8} : isBlank b = true ↔ b ∈ blankBytes := by
  simp only [isBlank, blankBytes, Bool.or_eq_true, Bool.and_eq_true, beq_iff_eq, decide_eq_true_eq,
    List.mem_cons, List.not_mem_nil, or_false, UInt8.le_iff_toNat_le, ← UInt8.toNat_inj,
    UInt8.reduceToNat]
  omega

theorem blanks_iff {w : Bytes} : Blanks w ↔ ∀ b ∈ w, isBlank b = true :=
  forall₂_congr fun _ _ => isBlank_iff_mem.symm

theorem Blanks.isBlank {w : Bytes} (h : Blanks w) : ∀ b ∈ w, isBlank b = true := blanks_iff.mp h

theorem solid_iff {t : Bytes} : Solid t ↔ IsToken t := by
  refine and_congr_right fun _ => forall₂_congr fun b _ => ?_
  rw [← isBlank_iff_mem, Bool.not_eq_true]

/-- Tokens, each with the blanks behind it. There is at least one unless the token is the last. -/
inductive Spaced : List (Bytes × Bytes) → Prop where
  | nil : Spaced []
  | cons {t gap : Bytes} {words : List (Bytes × Bytes)} (ht : Solid t) (hgap : Blanks gap)
      (hparted : words ≠ [] → gap ≠ []) (h : Spaced words) : Spaced ((t, gap) :: words)

/-- Blanks, and then tokens with the blanks behind them. -/
structure Spacing where
  front : Bytes
  words : List (Bytes × Bytes)
  blanks_front : Blanks front
  spaced : Spaced words

/-- The bytes of the tokens and of the blanks behind them. -/
def wordsText (words : List (Bytes × Bytes)) : Bytes := words.flatMap fun w => w.1 ++ w.2

theorem wordsText_cons (t gap : Bytes) (words : List (Bytes × Bytes)) :
    wordsText ((t, gap) :: words) = t ++ (gap ++ wordsText words) := by
  rw [wordsText, List.flatMap_cons, List.append_assoc]
  rfl

namespace Spaced

variable {gap : Bytes} {words : List (Bytes × Bytes)}

/-- The text is empty or begins with a byte that is not blank. -/
theorem head_not_isBlank (h : Spaced words) : ∀ b ∈ (wordsText words).head?, isBlank b = false := by
  intro b hb
  cases h with
  | nil => cases hb
  | cons ht =>
    obtain ⟨hne, hsolid⟩ := solid_iff.mp ht
    rw [wordsText_cons, List.head?_append_of_ne_nil _ hne] at hb
    exact hsolid b (List.mem_of_mem_head? hb)

theorem atBreak (hgap : Blanks gap) (hparted : words ≠ [] → gap ≠ []) :
    AtBreak (gap ++ wordsText words) := by
  cases gap with
  | nil =>
    have hlast : words = [] := not_not.mp fun hne => hparted hne rfl
    subst hlast
    nofun
  | cons b gap => exact atBreak_cons (hgap.isBlank b List.mem_cons_self) _

/-- The text of words does not begin at a break. -/
theorem not_atBreak (h : Spaced words) (hne : words ≠ []) : ¬ AtBreak (wordsText words) := by
  intro hbreak
  cases h with
  | nil => exact hne rfl
  | @cons t gap words ht =>
    obtain ⟨b, t, rfl⟩ := List.exists_cons_of_ne_nil ht.1
    have hblank : isBlank b = true := hbreak b (by rw [wordsText_cons]; rfl)
    exact ht.2 b List.mem_cons_self (isBlank_iff_mem.mp hblank)

theorem tokens_wordsText (h : Spaced words) : tokens (wordsText words) = words.map (·.1) := by
  induction h with
  | nil => rfl
  | cons ht hgap hparted _ ih =>
    rw [wordsText_cons, tokens_append_token (solid_iff.mp ht) (atBreak hgap hparted),
      tokens_append_blanks hgap.isBlank, ih, List.map_cons]

end Spaced

/-! ## A stretch ends in one place -/

/-- What satisfies `p` in front of what does not is cut off in one way. -/
theorem append_inj_of_stretch {p : UInt8 → Bool} {a a' rest rest' : Bytes} (ha : ∀ b ∈ a, p b = true)
    (ha' : ∀ b ∈ a', p b = true) (hrest : ∀ b ∈ rest.head?, p b = false)
    (hrest' : ∀ b ∈ rest'.head?, p b = false) (h : a ++ rest = a' ++ rest') :
    a = a' ∧ rest = rest' := by
  have hcut : ∀ {a rest : Bytes}, (∀ b ∈ a, p b = true) → (∀ b ∈ rest.head?, p b = false) →
      (a ++ rest).takeWhile p = a := by
    intro a rest ha hrest
    have hstop : rest.takeWhile p = [] := by
      cases rest with
      | nil => rfl
      | cons b rest => exact List.takeWhile_cons_of_neg (by simp [hrest b rfl])
    rw [List.takeWhile_append_of_pos ha, hstop, List.append_nil]
  have heq : a = a' := by rw [← hcut ha hrest, h, hcut ha' hrest']
  subst heq
  exact ⟨rfl, List.append_cancel_left h⟩

theorem Spaced.eq_of_text {words words' : List (Bytes × Bytes)} (h : Spaced words)
    (h' : Spaced words') (htext : wordsText words = wordsText words') : words = words' := by
  induction h generalizing words' with
  | nil =>
    cases h' with
    | nil => rfl
    | cons ht =>
      rw [wordsText_cons] at htext
      exact absurd (List.append_eq_nil_iff.mp htext.symm).1 ht.1
  | @cons t gap words ht hgap hparted hwords ih =>
    cases h' with
    | nil =>
      rw [wordsText_cons] at htext
      exact absurd (List.append_eq_nil_iff.mp htext).1 ht.1
    | cons ht' hgap' hparted' hwords' =>
      rw [wordsText_cons, wordsText_cons] at htext
      have hsolid : ∀ {t : Bytes}, Solid t → ∀ b ∈ t, (!isBlank b) = true := fun ht b hb => by
        rw [(solid_iff.mp ht).2 b hb]
        rfl
      have hbreak : ∀ {bs : Bytes}, AtBreak bs → ∀ b ∈ bs.head?, (!isBlank b) = false :=
        fun hb b hmem => by
          rw [hb b hmem]
          rfl
      obtain ⟨rfl, hbehind⟩ := append_inj_of_stretch (hsolid ht) (hsolid ht')
        (hbreak (atBreak hgap hparted)) (hbreak (atBreak hgap' hparted')) htext
      obtain ⟨rfl, hrest⟩ := append_inj_of_stretch hgap.isBlank hgap'.isBlank
        hwords.head_not_isBlank hwords'.head_not_isBlank hbehind
      rw [ih hwords' hrest]

namespace Spacing

def text (s : Spacing) : Bytes := s.front ++ wordsText s.words

/-- The tokens that the blanks are put around. -/
def tokens (s : Spacing) : List Bytes := s.words.map (·.1)

theorem tokens_text (s : Spacing) : Referee.tokens s.text = s.tokens := by
  rw [text, tokens_append_blanks s.blanks_front.isBlank, s.spaced.tokens_wordsText, tokens]

theorem text_injective : Function.Injective text := by
  rintro ⟨front, words, hfront, hwords⟩ ⟨front', words', hfront', hwords'⟩ h
  obtain ⟨rfl, hrest⟩ := append_inj_of_stretch hfront.isBlank hfront'.isBlank
    hwords.head_not_isBlank hwords'.head_not_isBlank h
  obtain rfl := hwords.eq_of_text hwords' hrest
  rfl

theorem exists_text_of_maximalRuns {bs : Bytes} {ts : List Bytes} (h : MaximalRuns bs ts) :
    ∃ s : Spacing, s.text = bs := by
  induction h with
  | @blanks w hw => exact ⟨⟨w, [], blanks_iff.mpr hw, .nil⟩, List.append_nil w⟩
  | @token w t rest ts hw ht hb _ ih =>
    obtain ⟨s, rfl⟩ := ih
    have hparted : s.words ≠ [] → s.front ≠ [] := by
      -- without blanks the next token would begin right behind this one
      intro hne hfront
      refine s.spaced.not_atBreak hne ?_
      rwa [text, hfront] at hb
    refine ⟨⟨w, (t, s.front) :: s.words, blanks_iff.mpr hw,
      .cons (solid_iff.mpr ht) s.blanks_front hparted s.spaced⟩, ?_⟩
    rw [text, wordsText_cons, text]

/-- Every byte string is the text of a spacing. -/
theorem exists_text (bs : Bytes) : ∃ s : Spacing, s.text = bs :=
  exists_text_of_maximalRuns (maximalRuns_tokens bs)

end Spacing

/-- **Tokenizing undoes spacing.** The tokens of a spacing's text are its tokens. Every byte string is
the text of one spacing and no other, whose tokens are therefore its own. So a non-empty stretch of
blanks parts the tokens in front of it from those behind it. -/
theorem tokens_undo_spacing :
    (∀ s : Spacing, tokens s.text = s.tokens) ∧
      (∀ bs : Bytes, ∃ s : Spacing, s.text = bs ∧ s.tokens = tokens bs ∧
        ∀ s' : Spacing, s'.text = bs → s' = s) ∧
      ∀ a gap b : Bytes, gap ≠ [] → Blanks gap → tokens (a ++ gap ++ b) = tokens a ++ tokens b := by
  refine ⟨Spacing.tokens_text, ?_, ?_⟩
  · intro bs
    obtain ⟨s, rfl⟩ := Spacing.exists_text bs
    exact ⟨s, rfl, s.tokens_text.symm, fun s' hs' => Spacing.text_injective hs'⟩
  · intro a gap b hne hgap
    rw [List.append_assoc, tokens_append_blanks_append hne hgap.isBlank]

/-- A vertical tab alone parts two tokens. -/
theorem tokens_undo_spacing_verticalTab :
    ([11] : Bytes) ≠ [] ∧ Blanks [11] ∧
      tokens ([97, 98] ++ [11] ++ [99, 10]) = tokens [97, 98] ++ tokens [99, 10] := by
  have hblanks : Blanks [11] := List.forall_mem_singleton.mpr (by decide)
  exact ⟨by decide, hblanks, tokens_undo_spacing.2.2 _ _ _ (by decide) hblanks⟩

end Referee
