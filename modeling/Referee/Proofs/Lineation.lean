import Referee.Checker.Exact
import Referee.Proofs.Lines

/-!
# Lines and the terminators behind them

A `Lineation` is a list of lines with what closes each, and bytes at the end that nothing closes. Its
text falls into these lines just if it is `Parted`, that is if no lone CR stands in front of a lone LF
(`Lineation.lines_text_iff`), and every byte string is the text of just one such lineation
(`Lineation.exists_text`, `Lineation.eq_of_text`). Writing another terminator for every LF changes no
line (`lines_terminateWith`), and so nothing that the comparison by lines reports.
-/

namespace Referee

/-- What closes a line: CR LF, a CR alone or an LF alone. -/
inductive Terminator where
  | crlf
  | cr
  | lf
  deriving DecidableEq, Repr

namespace Terminator

def bytes : Terminator → Bytes
  | crlf => [13, 10]
  | cr => [13]
  | lf => [10]

/-- A CR is a terminator of its own unless an LF comes right behind it. -/
theorem endsLine_bytes_iff {t : Terminator} {rest : Bytes} :
    EndsLine t.bytes rest ↔ (t = cr → rest.head? ≠ some 10) := by
  cases t <;> simp [EndsLine, bytes]

end Terminator

/-- The terminators of a byte string, in order. A CR LF is one of them and not two. -/
def terminators : Bytes → List Terminator
  | [] => []
  | 13 :: 10 :: bs => .crlf :: terminators bs
  | 13 :: bs => .cr :: terminators bs
  | 10 :: bs => .lf :: terminators bs
  | _ :: bs => terminators bs

/-- How often an LF comes right behind a CR. -/
def crlfCount (bs : Bytes) : Nat := (bs.zip bs.tail).count (13, 10)

/-- Neither CR nor LF is among the bytes. -/
def Undivided (l : Bytes) : Prop := 13 ∉ l ∧ 10 ∉ l

theorem undivided_iff {l : Bytes} : Undivided l ↔ Unbroken l := by
  constructor
  · rintro ⟨hcr, hlf⟩ b hb
    rw [isLineBreak, Bool.or_eq_false_iff, beq_eq_false_iff_ne, beq_eq_false_iff_ne]
    exact ⟨fun h => hcr (h ▸ hb), fun h => hlf (h ▸ hb)⟩
  · intro h
    exact ⟨fun hb => absurd (h _ hb) (by decide), fun hb => absurd (h _ hb) (by decide)⟩

/-- Bytes follow the last terminator. -/
def EndsOpen (bs : Bytes) : Prop := ∃ b ∈ bs.getLast?, b ≠ 13 ∧ b ≠ 10

instance decidableEndsOpen (bs : Bytes) : Decidable (EndsOpen bs) :=
  decidable_of_iff (bs.getLast?.any (fun b => b ≠ 13 ∧ b ≠ 10) = true) (by
    simp [EndsOpen, Option.any_eq_true])

/-! ## The terminators of a text -/

theorem terminators_append {l : Bytes} (hl : Undivided l) (rest : Bytes) :
    terminators (l ++ rest) = terminators rest := by
  induction l with
  | nil => rfl
  | cons b l ih =>
    have hcr : b ≠ 13 := fun h => hl.1 (h ▸ List.mem_cons_self)
    have hlf : b ≠ 10 := fun h => hl.2 (h ▸ List.mem_cons_self)
    have hl' : Undivided l :=
      ⟨fun h => hl.1 (List.mem_cons_of_mem _ h), fun h => hl.2 (List.mem_cons_of_mem _ h)⟩
    rw [List.cons_append, terminators, ih hl']
    · exact fun bs h => absurd h hcr
    · exact hcr
    · exact hlf

theorem terminators_terminated {t : Terminator} {rest : Bytes} (ht : EndsLine t.bytes rest) :
    terminators (t.bytes ++ rest) = t :: terminators rest := by
  cases t with
  | crlf => rfl
  | lf => rfl
  | cr =>
    have hrest : rest.head? ≠ some 10 := Terminator.endsLine_bytes_iff.mp ht rfl
    rw [Terminator.bytes, List.singleton_append, terminators]
    rintro bs rfl
    exact hrest rfl

theorem crlfCount_cons (b : UInt8) (bs : Bytes) :
    crlfCount (b :: bs) = crlfCount bs + if b = 13 ∧ bs.head? = some 10 then 1 else 0 := by
  cases bs with
  | nil => simp [crlfCount]
  | cons c bs => simp [crlfCount, List.count_cons]

/-- Each CR and each LF is a terminator, but those of a CR LF are one together. -/
theorem length_terminators (bs : Bytes) :
    (terminators bs).length + crlfCount bs = bs.count 13 + bs.count 10 := by
  fun_induction terminators bs with
  | case1 => rfl
  | case2 bs ih =>
    have hpairs : crlfCount (13 :: 10 :: bs) = crlfCount bs + 1 := by simp [crlfCount_cons]
    have hcr : (13 :: 10 :: bs).count 13 = bs.count 13 + 1 := by simp
    have hlf : (13 :: 10 :: bs).count 10 = bs.count 10 + 1 := by simp
    rw [List.length_cons, hpairs, hcr, hlf]
    omega
  | case3 bs hlone ih =>
    have hhead : bs.head? ≠ some 10 := by
      intro h
      obtain ⟨bs, rfl⟩ := List.head?_eq_some_iff.mp h
      exact hlone bs rfl
    have hpairs : crlfCount (13 :: bs) = crlfCount bs := by simp [crlfCount_cons, hhead]
    have hlf : (13 :: bs).count 10 = bs.count 10 := List.count_cons_of_ne (by decide)
    rw [List.length_cons, hpairs, hlf, List.count_cons_self]
    omega
  | case4 bs ih =>
    have hpairs : crlfCount (10 :: bs) = crlfCount bs := by simp [crlfCount_cons]
    have hcr : (10 :: bs).count 13 = bs.count 13 := List.count_cons_of_ne (by decide)
    rw [List.length_cons, hpairs, hcr, List.count_cons_self]
    omega
  | case5 b bs _ hcr hlf ih =>
    rw [crlfCount_cons, if_neg fun h => hcr h.1, List.count_cons_of_ne hcr, List.count_cons_of_ne hlf]
    exact ih

/-! ## Lines written out -/

/-- Lines with what closes each, and then bytes that nothing closes: one more line, unless there are
none. -/
inductive Lineation where
  | last (l : Bytes) (hl : Undivided l)
  | closed (l : Bytes) (hl : Undivided l) (t : Terminator) (rest : Lineation)

namespace Lineation

def text : Lineation → Bytes
  | last l _ => l
  | closed l _ t rest => l ++ (t.bytes ++ rest.text)

def lines : Lineation → List Bytes
  | last l _ => if l = [] then [] else [l]
  | closed l _ _ rest => l :: rest.lines

def terminators : Lineation → List Terminator
  | last _ _ => []
  | closed _ _ t rest => t :: rest.terminators

/-- The first line is empty and a lone LF closes it. -/
def BeginsWithLF : Lineation → Prop
  | closed [] _ .lf _ => True
  | _ => False

/-- No lone CR closes a line right in front of an empty one that a lone LF closes. -/
def Parted : Lineation → Prop
  | last _ _ => True
  | closed _ _ t rest => ¬ (t = .cr ∧ rest.BeginsWithLF) ∧ rest.Parted

theorem undivided_of_mem_lines (s : Lineation) : ∀ l ∈ s.lines, Undivided l := by
  induction s with
  | last l hl =>
    intro m hm
    rw [lines] at hm
    split at hm
    · cases hm
    · exact List.mem_singleton.mp hm ▸ hl
  | closed l hl t rest ih => exact List.forall_mem_cons.mpr ⟨hl, ih⟩

/-! ## Reading the text -/

theorem head?_text_eq_lf_iff (s : Lineation) : s.text.head? = some 10 ↔ s.BeginsWithLF := by
  cases s with
  | last l hl => exact iff_of_false (fun h => hl.2 (List.mem_of_mem_head? h)) id
  | closed l hl t rest =>
    cases l with
    | nil => cases t <;> simp [text, BeginsWithLF, Terminator.bytes]
    | cons b l =>
      refine iff_of_false (fun h => hl.2 ?_) id
      exact List.mem_of_mem_head? (l := b :: l) h

theorem endsLine_iff {t : Terminator} {rest : Lineation} :
    EndsLine t.bytes rest.text ↔ ¬ (t = .cr ∧ rest.BeginsWithLF) := by
  rw [Terminator.endsLine_bytes_iff, Ne, head?_text_eq_lf_iff, not_and]

theorem lines_text_last (l : Bytes) (hl : Undivided l) :
    Referee.lines (last l hl).text = (last l hl).lines := by
  by_cases hne : l = []
  · subst hne
    rfl
  · rw [text, lines_of_unbroken (undivided_iff.mp hl) hne, lines, if_neg hne]

theorem lines_text_closed {l : Bytes} (hl : Undivided l) {t : Terminator} {rest : Lineation}
    (h : ¬ (t = .cr ∧ rest.BeginsWithLF)) :
    Referee.lines (closed l hl t rest).text = l :: Referee.lines rest.text :=
  lines_append_terminated (undivided_iff.mp hl) (endsLine_iff.mpr h)

/-- A CR and an LF that close one line each are read as one terminator, and the empty line between them
is lost. -/
theorem lines_text_merged {l : Bytes} (hl : Undivided l) (hnil : Undivided []) (rest : Lineation) :
    Referee.lines (closed l hl .cr (closed [] hnil .lf rest)).text = l :: Referee.lines rest.text :=
  lines_append_terminated (t := [13, 10]) (undivided_iff.mp hl) (.inl rfl)

theorem exists_of_beginsWithLF {s : Lineation} (h : s.BeginsWithLF) :
    ∃ hnil rest, s = closed [] hnil .lf rest := by
  match s, h with
  | closed [] hnil .lf rest, _ => exact ⟨hnil, rest, rfl⟩

theorem length_lines_text_le (s : Lineation) : (Referee.lines s.text).length ≤ s.lines.length := by
  induction s with
  | last l hl => rw [lines_text_last]
  | closed l hl t rest ih =>
    by_cases h : t = .cr ∧ rest.BeginsWithLF
    · obtain ⟨rfl, hrest⟩ := h
      obtain ⟨hnil, rest, rfl⟩ := exists_of_beginsWithLF hrest
      -- behind the CR the LF closes no line, but it would alone, and `ih` counts that one
      rw [lines_text_closed hnil (by simp)] at ih
      rw [lines_text_merged]
      exact ih.trans (Nat.le_succ _)
    · rw [lines_text_closed hl h]
      exact Nat.succ_le_succ ih

/-- **The text falls into the lines just if no lone CR stands in front of a lone LF.** -/
theorem lines_text_iff (s : Lineation) : Referee.lines s.text = s.lines ↔ s.Parted := by
  induction s with
  | last l hl => exact iff_of_true (lines_text_last l hl) trivial
  | closed l hl t rest ih =>
    by_cases h : t = .cr ∧ rest.BeginsWithLF
    · refine iff_of_false ?_ fun hparted => hparted.1 h
      obtain ⟨rfl, hrest⟩ := h
      obtain ⟨hnil, rest, rfl⟩ := exists_of_beginsWithLF hrest
      rw [lines_text_merged]
      intro heq
      -- the lines behind the lost one cannot make up for it
      have hlength : (Referee.lines rest.text).length = rest.lines.length + 1 :=
        congrArg List.length (List.cons.inj heq).2
      have hle := length_lines_text_le rest
      omega
    · rw [lines_text_closed hl h, lines, List.cons.injEq, ih]
      exact ⟨fun hrest => ⟨h, hrest.2⟩, fun hparted => ⟨rfl, hparted.2⟩⟩

theorem terminators_text {s : Lineation} (h : s.Parted) :
    Referee.terminators s.text = s.terminators := by
  induction s with
  | last l hl =>
    have h := terminators_append hl []
    rwa [List.append_nil] at h
  | closed l hl t rest ih =>
    obtain ⟨hends, hrest⟩ := h
    rw [text, terminators_append hl, terminators_terminated (endsLine_iff.mpr hends), ih hrest,
      terminators]

/-! ## Every byte string is one text -/

theorem exists_text_of_lined {bs : Bytes} {ls : List Bytes} (h : Lined bs ls) :
    ∃ s : Lineation, s.Parted ∧ s.text = bs := by
  induction h with
  | done => exact ⟨last [] (undivided_iff.mpr nofun), trivial, rfl⟩
  | last hl _ => exact ⟨last _ (undivided_iff.mpr hl), trivial, rfl⟩
  | @line l t rest ls hl ht _ ih =>
    obtain ⟨s, hparted, rfl⟩ := ih
    obtain ⟨t, rfl⟩ : ∃ u : Terminator, t = u.bytes := by
      rcases ht with rfl | rfl | ⟨rfl, -⟩
      exacts [⟨.crlf, rfl⟩, ⟨.lf, rfl⟩, ⟨.cr, rfl⟩]
    exact ⟨closed l (undivided_iff.mpr hl) t s, ⟨endsLine_iff.mp ht, hparted⟩, rfl⟩

theorem exists_text (bs : Bytes) : ∃ s : Lineation, s.Parted ∧ s.text = bs :=
  exists_text_of_lined (lined_lines bs)

theorem flatten_lines_last (l : Bytes) (hl : Undivided l) : (last l hl).lines.flatten = l := by
  by_cases hne : l = []
  · subst hne
    rfl
  · rw [lines, if_neg hne, List.flatten_singleton]

theorem eq_of_lines_of_terminators {s s' : Lineation} (hlines : s.lines = s'.lines)
    (hterminators : s.terminators = s'.terminators) : s = s' := by
  induction s generalizing s' with
  | last l hl =>
    cases s' with
    | last l' hl' =>
      have hflatten := congrArg List.flatten hlines
      rw [flatten_lines_last, flatten_lines_last] at hflatten
      subst hflatten
      rfl
    | closed => cases hterminators
  | closed l hl t rest ih =>
    cases s' with
    | last => cases hterminators
    | closed l' hl' t' rest' =>
      obtain ⟨rfl, hrest⟩ := List.cons.inj hlines
      obtain ⟨rfl, hbehind⟩ := List.cons.inj hterminators
      rw [ih hrest hbehind]

theorem eq_of_text {s s' : Lineation} (hs : s.Parted) (hs' : s'.Parted) (h : s.text = s'.text) :
    s = s' := by
  apply eq_of_lines_of_terminators
  · rw [← (lines_text_iff s).mpr hs, h, (lines_text_iff s').mpr hs']
  · rw [← terminators_text hs, h, terminators_text hs']

/-! ## How many lines there are -/

theorem endsOpen_iff_of_undivided {l : Bytes} (hl : Undivided l) : EndsOpen l ↔ l ≠ [] := by
  constructor
  · rintro ⟨b, hb, -⟩ rfl
    cases hb
  · intro hne
    have hmem := List.getLast_mem hne
    exact ⟨_, List.getLast?_eq_some_getLast hne, fun h => hl.1 (h ▸ hmem), fun h => hl.2 (h ▸ hmem)⟩

theorem endsOpen_terminated_iff (l : Bytes) (t : Terminator) (rest : Bytes) :
    EndsOpen (l ++ (t.bytes ++ rest)) ↔ EndsOpen rest := by
  rw [EndsOpen, EndsOpen, List.getLast?_append, List.getLast?_append]
  cases rest.getLast? with
  | some b => rfl
  | none => cases t <;> simp [Terminator.bytes]

theorem length_lines (s : Lineation) :
    s.lines.length = s.terminators.length + if EndsOpen s.text then 1 else 0 := by
  induction s with
  | last l hl =>
    by_cases hne : l = []
    · subst hne
      rfl
    · simp [lines, terminators, text, hne, endsOpen_iff_of_undivided hl]
  | closed l hl t rest ih =>
    simp only [lines, terminators, text, List.length_cons, endsOpen_terminated_iff, ih]
    omega

/-! ## One terminator for all lines -/

/-- The same lines, with `t` to close each. -/
def closedWith (t : Terminator) : Lineation → Lineation
  | last l hl => last l hl
  | closed l hl _ rest => closed l hl t (rest.closedWith t)

theorem lines_closedWith (t : Terminator) (s : Lineation) : (s.closedWith t).lines = s.lines := by
  induction s with
  | last => rfl
  | closed l hl u rest ih => rw [closedWith, lines, ih, lines]

theorem parted_closedWith (t : Terminator) (s : Lineation) : (s.closedWith t).Parted := by
  induction s with
  | last => trivial
  | closed l hl u rest ih =>
    refine ⟨?_, ih⟩
    rintro ⟨rfl, hlf⟩
    cases rest with
    | last => exact hlf
    | closed l => cases l <;> exact hlf

end Lineation

/-- The text with `t` in place of every LF. -/
def terminateWith (t : Terminator) (bs : Bytes) : Bytes :=
  bs.flatMap fun b => if b = 10 then t.bytes else [b]

theorem terminateWith_of_not_mem (t : Terminator) {l : Bytes} (hl : 10 ∉ l) :
    terminateWith t l = l := by
  induction l with
  | nil => rfl
  | cons b l ih =>
    obtain ⟨hb, hrest⟩ := not_or.mp (mt List.mem_cons.mpr hl)
    rw [terminateWith, List.flatMap_cons, if_neg (Ne.symm hb)]
    exact congrArg (b :: ·) (ih hrest)

theorem terminateWith_append (t : Terminator) (as bs : Bytes) :
    terminateWith t (as ++ bs) = terminateWith t as ++ terminateWith t bs := List.flatMap_append

/-- Without a CR every terminator is an LF. -/
theorem Lineation.text_closedWith {s : Lineation} (h : 13 ∉ s.text) (t : Terminator) :
    (s.closedWith t).text = terminateWith t s.text := by
  induction s with
  | last l hl => exact (terminateWith_of_not_mem t hl.2).symm
  | closed l hl u rest ih =>
    simp only [text, List.mem_append, not_or] at h
    obtain ⟨-, hu, hrest⟩ := h
    have hlf : u = .lf := by
      cases u with
      | lf => rfl
      | crlf => exact absurd List.mem_cons_self hu
      | cr => exact absurd List.mem_cons_self hu
    subst hlf
    have hbytes : terminateWith t Terminator.lf.bytes = t.bytes := by
      rw [Terminator.bytes, terminateWith, List.flatMap_singleton, if_pos rfl]
    rw [closedWith, text, text, ih hrest, terminateWith_append, terminateWith_append,
      terminateWith_of_not_mem t hl.2, hbytes]

theorem lines_terminateWith {bs : Bytes} (h : 13 ∉ bs) (t : Terminator) :
    lines (terminateWith t bs) = lines bs := by
  obtain ⟨s, hparted, rfl⟩ := Lineation.exists_text bs
  rw [← s.text_closedWith h t, (Lineation.lines_text_iff _).mpr (s.parted_closedWith t),
    s.lines_closedWith, (Lineation.lines_text_iff s).mpr hparted]

/-- **Reading lines undoes writing them.** The text of a lineation falls into its lines just if no lone
CR stands in front of a lone LF. Every byte string is the text of one such lineation and no other, made
of the lines and the terminators found in it; there are as many lines as terminators, and one more if
bytes follow the last. So the comparison by lines reports the same whichever terminator closes them. -/
theorem lines_undo_lineation :
    (∀ s : Lineation, lines s.text = s.lines ↔ s.Parted) ∧
      (∀ bs : Bytes,
        (∀ l ∈ lines bs, Undivided l) ∧
        (∃ s : Lineation, s.Parted ∧ s.text = bs ∧ s.lines = lines bs ∧
          s.terminators = terminators bs ∧ ∀ s' : Lineation, s'.Parted → s'.text = bs → s' = s) ∧
        (lines bs).length = (terminators bs).length + (if EndsOpen bs then 1 else 0) ∧
        (terminators bs).length + crlfCount bs = bs.count 13 + bs.count 10) ∧
      ∀ (t : Terminator) (bs other : Bytes), 13 ∉ bs →
        compare .lineCount (terminateWith t bs) other = compare .lineCount bs other ∧
          compare .lineCount other (terminateWith t bs) = compare .lineCount other bs := by
  refine ⟨Lineation.lines_text_iff, ?_, ?_⟩
  · intro bs
    obtain ⟨s, hparted, rfl⟩ := Lineation.exists_text bs
    have hlines : lines s.text = s.lines := s.lines_text_iff.mpr hparted
    have hterminators : terminators s.text = s.terminators := Lineation.terminators_text hparted
    refine ⟨?_, ⟨s, hparted, rfl, hlines.symm, hterminators.symm, ?_⟩, ?_, length_terminators s.text⟩
    · rw [hlines]
      exact s.undivided_of_mem_lines
    · exact fun s' hparted' htext => Lineation.eq_of_text hparted' hparted htext
    · rw [hlines, hterminators]
      exact s.length_lines
  · intro t bs other h
    have hrows : lineTokens (terminateWith t bs) = lineTokens bs := by
      rw [lineTokens, lines_terminateWith h t, lineTokens]
    constructor
    · show lineCount (terminateWith t bs) other = lineCount bs other
      rw [lineCount, lineCount, hrows]
    · show lineCount other (terminateWith t bs) = lineCount other bs
      rw [lineCount, lineCount, hrows]

/-- With lone CRs the empty line in the middle is still there, and still one too many. -/
theorem lines_undo_lineation_blank :
    13 ∉ ([97, 10, 10, 98] : Bytes) ∧
      compare .lineCount [97, 10, 98] [97, 13, 13, 98] =
        compare .lineCount [97, 10, 98] [97, 10, 10, 98] :=
  have h : 13 ∉ ([97, 10, 10, 98] : Bytes) := by decide
  ⟨h, (lines_undo_lineation.2.2 .cr [97, 10, 10, 98] [97, 10, 98] h).2⟩

end Referee
