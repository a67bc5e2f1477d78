import Mathlib.Data.List.TakeWhile
import Referee.Token

/-!
# Lines are what the terminators close

`Lined bs ls` says which lines a byte string has: CR LF, a lone CR and a lone LF each close the
line in front of them, and bytes after the last terminator are a line. `lined_iff` states that
`lines` finds exactly these lines; `lines_append_terminated` takes one line off the front.
-/

namespace Referee

/-- The bytes hold no line break. -/
def Unbroken (l : Bytes) : Prop := ∀ b ∈ l, isLineBreak b = false

/-- `t` is a terminator in front of `rest`; a CR in front of an LF is not one alone. -/
def EndsLine (t rest : Bytes) : Prop :=
  t = [13, 10] ∨ t = [10] ∨ t = [13] ∧ rest.head? ≠ some 10

/-- The lines of a byte string, in order. -/
inductive Lined : Bytes → List Bytes → Prop where
  | done : Lined [] []
  | last {l : Bytes} (hl : Unbroken l) (hne : l ≠ []) : Lined l [l]
  | line {l t rest : Bytes} {ls : List Bytes} (hl : Unbroken l) (ht : EndsLine t rest)
      (h : Lined rest ls) : Lined (l ++ (t ++ rest)) (l :: ls)

/-! ## One line off the front -/

theorem linesFrom_append {l : Bytes} (hl : Unbroken l) (line rest : Bytes) :
    linesFrom line (l ++ rest) = linesFrom (l.reverse ++ line) rest := by
  induction l generalizing line with
  | nil => rfl
  | cons b l ih =>
    have hb : isLineBreak b = false := hl b List.mem_cons_self
    have hcr : b ≠ 13 := by rintro rfl; cases hb
    have step : linesFrom line (b :: (l ++ rest)) = linesFrom (b :: line) (l ++ rest) := by
      rw [linesFrom, if_neg (by simp [hb])]
      exact fun bs h => absurd h hcr
    rw [List.cons_append, step, ih (fun c hc => hl c (List.mem_cons_of_mem _ hc)),
      List.reverse_cons, List.append_assoc, List.singleton_append]

theorem linesFrom_terminator {t rest : Bytes} (ht : EndsLine t rest) (line : Bytes) :
    linesFrom line (t ++ rest) = line.reverse :: lines rest := by
  rcases ht with rfl | rfl | ⟨rfl, hrest⟩
  · rfl
  · rfl
  · cases rest with
    | nil => rfl
    | cons b rest =>
      have hb : b ≠ 10 := by simpa using hrest
      rw [List.singleton_append, linesFrom, if_pos (by rfl)]
      · rfl
      · intro bs _ h
        exact hb (List.cons.inj h).1

theorem lines_append_terminated {l t rest : Bytes} (hl : Unbroken l) (ht : EndsLine t rest) :
    lines (l ++ (t ++ rest)) = l :: lines rest := by
  rw [lines, linesFrom_append hl, linesFrom_terminator ht, List.append_nil, List.reverse_reverse]

theorem lines_of_unbroken {l : Bytes} (hl : Unbroken l) (hne : l ≠ []) : lines l = [l] := by
  have h := linesFrom_append hl [] []
  rw [List.append_nil, List.append_nil] at h
  rw [lines, h, linesFrom, if_neg (by simpa using hne), List.reverse_reverse]

/-- Lines that are written out, each with a line feed, are found again. -/
theorem lines_flatMap {α : Type} {f : α → Bytes} {xs : List α} (h : ∀ x ∈ xs, Unbroken (f x)) :
    lines (xs.flatMap fun x => f x ++ [10]) = xs.map f := by
  induction xs with
  | nil => rfl
  | cons x xs ih =>
    have hx : Unbroken (f x) := h x List.mem_cons_self
    rw [List.flatMap_cons, List.append_assoc, lines_append_terminated hx (.inr (.inl rfl)),
      ih fun y hy => h y (List.mem_cons_of_mem x hy), List.map_cons]

/-! ## The two notions agree -/

theorem Lined.eq_lines {bs : Bytes} {ls : List Bytes} (h : Lined bs ls) : ls = lines bs := by
  induction h with
  | done => rfl
  | last hl hne => rw [lines_of_unbroken hl hne]
  | line hl ht _ ih => rw [lines_append_terminated hl ht, ih]

/-- Without a terminator there is at most one line; else the first terminator closes the first. -/
theorem unbroken_or_line (bs : Bytes) : Unbroken bs ∨
    ∃ l t rest, bs = l ++ (t ++ rest) ∧ Unbroken l ∧ EndsLine t rest := by
  have hl : Unbroken (bs.takeWhile (!isLineBreak ·)) := fun b hb => by
    simpa using List.mem_takeWhile_imp hb
  have hsplit : bs.takeWhile (!isLineBreak ·) ++ bs.dropWhile (!isLineBreak ·) = bs :=
    List.takeWhile_append_dropWhile
  cases hd : bs.dropWhile (!isLineBreak ·) with
  | nil =>
    rw [hd, List.append_nil] at hsplit
    exact .inl (hsplit ▸ hl)
  | cons b cs =>
    have hb : isLineBreak b = true := by
      have := List.head_dropWhile_not (!isLineBreak ·) (l := bs) (by simp [hd])
      simpa [hd] using this
    rw [hd] at hsplit
    refine .inr ⟨bs.takeWhile (!isLineBreak ·), ?_⟩
    simp only [isLineBreak, Bool.or_eq_true, beq_iff_eq] at hb
    rcases hb with rfl | rfl
    · by_cases hlf : cs.head? = some 10
      · obtain ⟨rest, rfl⟩ := List.head?_eq_some_iff.mp hlf
        exact ⟨[13, 10], rest, hsplit.symm, hl, .inl rfl⟩
      · exact ⟨[13], cs, hsplit.symm, hl, .inr (.inr ⟨rfl, hlf⟩)⟩
    · exact ⟨[10], cs, hsplit.symm, hl, .inr (.inl rfl)⟩

/-- Every byte string falls into lines. -/
theorem lined_lines (bs : Bytes) : Lined bs (lines bs) := by
  induction hn : bs.length using Nat.strong_induction_on generalizing bs with
  | _ n ih =>
    subst hn
    rcases unbroken_or_line bs with hl | ⟨l, t, rest, rfl, hl, ht⟩
    · by_cases hne : bs = []
      · subst hne
        exact .done
      · rw [lines_of_unbroken hl hne]
        exact .last hl hne
    · have hpos : 0 < t.length := by rcases ht with rfl | rfl | ⟨rfl, -⟩ <;> simp
      have hlt : rest.length < (l ++ (t ++ rest)).length := by
        simp only [List.length_append]
        omega
      rw [lines_append_terminated hl ht]
      exact .line hl ht (ih rest.length hlt rest rfl)

/-- **`lines` finds exactly the lines that the terminators close.** -/
theorem lined_iff {bs : Bytes} {ls : List Bytes} : Lined bs ls ↔ ls = lines bs :=
  ⟨Lined.eq_lines, fun h => h ▸ lined_lines bs⟩

end Referee
