import Mathlib.Data.List.Basic
import Referee.Checker.Exact

/-!
# Where two outputs part

`agreement xs ys` is the length of the longest common prefix (`prefix_take_agreement_iff`). The
walks `firstDifference` and `firstLineDifference` stop exactly there: each is decided by what the
two lists hold at that index (`firstDifference_eq`, `firstLineDifference_eq`).
-/

namespace Referee

/-! ## Longest common prefixes -/

section Agreement

variable {α : Type} [DecidableEq α]

/-- The length of the longest common prefix. -/
def agreement : List α → List α → Nat
  | x :: xs, y :: ys => if x = y then agreement xs ys + 1 else 0
  | _, _ => 0

@[simp] theorem agreement_nil_left (ys : List α) : agreement [] ys = 0 := by
  cases ys <;> rfl

@[simp] theorem agreement_nil_right (xs : List α) : agreement xs [] = 0 := by
  cases xs <;> rfl

theorem agreement_cons_self (x : α) (xs ys : List α) :
    agreement (x :: xs) (x :: ys) = agreement xs ys + 1 := if_pos rfl

theorem agreement_cons_of_ne {x y : α} (h : x ≠ y) (xs ys : List α) :
    agreement (x :: xs) (y :: ys) = 0 := if_neg h

theorem agreement_comm (xs ys : List α) : agreement xs ys = agreement ys xs := by
  induction xs generalizing ys with
  | nil => simp
  | cons x xs ih =>
    cases ys with
    | nil => simp
    | cons y ys =>
      by_cases h : x = y
      · subst h
        rw [agreement_cons_self, agreement_cons_self, ih]
      · rw [agreement_cons_of_ne h, agreement_cons_of_ne (Ne.symm h)]

theorem agreement_le_left (xs ys : List α) : agreement xs ys ≤ xs.length := by
  induction xs generalizing ys with
  | nil => simp
  | cons x xs ih =>
    cases ys with
    | nil => simp
    | cons y ys =>
      by_cases h : x = y
      · subst h
        rw [agreement_cons_self, List.length_cons]
        exact Nat.succ_le_succ (ih ys)
      · rw [agreement_cons_of_ne h]
        exact Nat.zero_le _

theorem agreement_le_right (xs ys : List α) : agreement xs ys ≤ ys.length := by
  rw [agreement_comm]
  exact agreement_le_left ys xs

/-- **The agreement is the longest common prefix.** -/
theorem prefix_take_agreement_iff {p xs ys : List α} :
    p <+: xs.take (agreement xs ys) ↔ p <+: xs ∧ p <+: ys := by
  induction p generalizing xs ys with
  | nil => simp
  | cons z p ih =>
    cases xs with
    | nil => simp
    | cons x xs =>
      cases ys with
      | nil => simp
      | cons y ys =>
        by_cases h : x = y
        · subst h
          rw [agreement_cons_self, List.take_succ_cons, List.cons_prefix_cons,
            List.cons_prefix_cons, List.cons_prefix_cons, ih]
          exact ⟨fun h => ⟨⟨h.1, h.2.1⟩, h.1, h.2.2⟩, fun h => ⟨h.1.1, h.1.2, h.2.2⟩⟩
        · rw [agreement_cons_of_ne h, List.take_zero, List.cons_prefix_cons, List.cons_prefix_cons]
          refine ⟨fun h => absurd h (by simp), fun h' => absurd ?_ h⟩
          exact h'.1.1.symm.trans h'.2.1

theorem getElem?_agreement_ne {xs ys : List α} {x y : α} (hx : xs[agreement xs ys]? = some x)
    (hy : ys[agreement xs ys]? = some y) : x ≠ y := by
  induction xs generalizing ys with
  | nil => simp at hx
  | cons x' xs ih =>
    cases ys with
    | nil => simp at hy
    | cons y' ys =>
      by_cases h : x' = y'
      · subst h
        rw [agreement_cons_self, List.getElem?_cons_succ] at hx hy
        exact ih hx hy
      · rw [agreement_cons_of_ne h, List.getElem?_cons_zero, Option.some.injEq] at hx hy
        exact hx ▸ hy ▸ h

theorem take_agreement (xs ys : List α) :
    xs.take (agreement xs ys) = ys.take (agreement xs ys) := by
  have h := prefix_take_agreement_iff.mp (List.prefix_rfl (l := xs.take (agreement xs ys)))
  have hlen : (xs.take (agreement xs ys)).length = agreement xs ys :=
    List.length_take_of_le (agreement_le_left xs ys)
  rw [List.prefix_iff_eq_take.mp h.2, hlen]

theorem eq_of_agreement {xs ys : List α} (hx : agreement xs ys = xs.length)
    (hy : agreement xs ys = ys.length) : xs = ys := by
  have h : xs <+: xs.take (agreement xs ys) := by simp [hx]
  exact (prefix_take_agreement_iff.mp h).2.eq_of_length (hx.symm.trans hy)

/-- Two lists are equal, or one ends where they part, or they hold different things there. -/
theorem agreement_cases (xs ys : List α) :
    xs = ys ∨ (agreement xs ys = xs.length ∧ xs.length < ys.length) ∨
      (agreement xs ys = ys.length ∧ ys.length < xs.length) ∨
      ∃ x y, xs[agreement xs ys]? = some x ∧ ys[agreement xs ys]? = some y := by
  have hl := agreement_le_left xs ys
  have hr := agreement_le_right xs ys
  by_cases hx : agreement xs ys = xs.length
  · by_cases hy : agreement xs ys = ys.length
    · exact .inl (eq_of_agreement hx hy)
    · exact .inr (.inl ⟨hx, by omega⟩)
  · by_cases hy : agreement xs ys = ys.length
    · exact .inr (.inr (.inl ⟨hy, by omega⟩))
    · exact .inr (.inr (.inr ⟨_, _, List.getElem?_eq_getElem (by omega),
        List.getElem?_eq_getElem (by omega)⟩))

end Agreement

/-! ## The walks stop there -/

/-- The difference of two token lists that hold the given tokens at the index before `n`. -/
def Difference.at? (n : Nat) : Option Bytes → Option Bytes → Option Difference
  | none, none => none
  | none, some _ => some .extra
  | some _, none => some .missing
  | some e, some a => some (.token n e a)

theorem firstDifference_eq (n : Nat) (es as : List Bytes) :
    firstDifference n es as =
      Difference.at? (n + agreement es as + 1) es[agreement es as]? as[agreement es as]? := by
  induction es generalizing n as with
  | nil => cases as <;> rfl
  | cons e es ih =>
    cases as with
    | nil => rfl
    | cons a as =>
      by_cases h : e = a
      · subst h
        rw [firstDifference, if_pos rfl, ih, agreement_cons_self, List.getElem?_cons_succ,
          List.getElem?_cons_succ, show n + 1 + agreement es as = n + (agreement es as + 1) by omega]
      · rw [firstDifference, if_neg h, agreement_cons_of_ne h]
        rfl

section Tokens

variable {n : Nat} {es as : List Bytes}

theorem firstDifference_of_extra (h : agreement es as = es.length) (hlt : es.length < as.length) :
    firstDifference n es as = some .extra := by
  rw [firstDifference_eq, h, List.getElem?_eq_none (Nat.le_refl _), List.getElem?_eq_getElem hlt]
  rfl

theorem firstDifference_of_missing (h : agreement es as = as.length) (hlt : as.length < es.length) :
    firstDifference n es as = some .missing := by
  rw [firstDifference_eq, h, List.getElem?_eq_none (Nat.le_refl _), List.getElem?_eq_getElem hlt]
  rfl

theorem firstDifference_of_token {e a : Bytes} (he : es[agreement es as]? = some e)
    (ha : as[agreement es as]? = some a) :
    firstDifference n es as = some (.token (n + agreement es as + 1) e a) := by
  rw [firstDifference_eq, he, ha]
  rfl

end Tokens

/-- The difference of two lists of lines that agree on `n` lines and go on as given. -/
def LineDifference.at? (n : Nat) :
    Option (List Bytes) → Option (List Bytes) → Option LineDifference
  | none, none => none
  | none, some _ => some (.extra n)
  | some _, none => some (.missing n)
  | some e, some a => (firstDifference 0 e a).map (.inLine (n + 1))

theorem firstLineDifference_eq (n : Nat) (es as : List (List Bytes)) :
    firstLineDifference n es as =
      LineDifference.at? (n + agreement es as) es[agreement es as]? as[agreement es as]? := by
  induction es generalizing n as with
  | nil => cases as <;> rfl
  | cons e es ih =>
    cases as with
    | nil => rfl
    | cons a as =>
      by_cases h : e = a
      · subst h
        rw [firstLineDifference, firstDifference_self, agreement_cons_self, List.getElem?_cons_succ,
          List.getElem?_cons_succ, ih, show n + 1 + agreement es as = n + (agreement es as + 1) by omega]
      · have hd : firstDifference 0 e a ≠ none := fun h' => h (firstDifference_eq_none_iff.mp h')
        obtain ⟨d, hd⟩ := Option.ne_none_iff_exists'.mp hd
        rw [firstLineDifference, hd, agreement_cons_of_ne h, List.getElem?_cons_zero,
          List.getElem?_cons_zero, LineDifference.at?, hd]
        rfl

section Lines

variable {n : Nat} {es as : List (List Bytes)}

theorem firstLineDifference_of_extra (h : agreement es as = es.length)
    (hlt : es.length < as.length) : firstLineDifference n es as = some (.extra (n + es.length)) := by
  rw [firstLineDifference_eq, h, List.getElem?_eq_none (Nat.le_refl _),
    List.getElem?_eq_getElem hlt]
  rfl

theorem firstLineDifference_of_missing (h : agreement es as = as.length)
    (hlt : as.length < es.length) :
    firstLineDifference n es as = some (.missing (n + as.length)) := by
  rw [firstLineDifference_eq, h, List.getElem?_eq_none (Nat.le_refl _),
    List.getElem?_eq_getElem hlt]
  rfl

theorem firstLineDifference_of_inLine {e a : List Bytes} {d : Difference}
    (he : es[agreement es as]? = some e) (ha : as[agreement es as]? = some a)
    (hd : firstDifference 0 e a = some d) :
    firstLineDifference n es as = some (.inLine (n + agreement es as + 1) d) := by
  rw [firstLineDifference_eq, he, ha, LineDifference.at?, hd]
  rfl

end Lines

end Referee
