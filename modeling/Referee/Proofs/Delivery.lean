import Referee.Proofs.Reports

/-!
# A verdict is returned only if it was reported

The lines of a report are written up to the first that is not accepted whole, and then both streams are
flushed. Each stream takes a beginning of its text, and no convention writes to standard error before
its lines for standard output are through (`Report.exists_progress`). So the exit code is returned just
if both streams have taken the whole text and passed it on (`Convention.deliver_whole_iff`).
-/

namespace Referee

/-! ## One line -/

namespace Writer

/-- A flush goes well. -/
def CanFlush (w : Writer) : Prop := w.flush.1 = .ok ()

/-- The writer has taken `p`, a beginning of `bs`, and will be flushed as it would have been before. -/
structure Gained (w w' : Writer) (bs p : Bytes) : Prop where
  taken : p <+: bs
  written : w'.written = w.written ++ p
  canFlush_iff : w'.CanFlush ↔ w.CanFlush

section Gained

variable {w w' w'' : Writer} {bs cs p q : Bytes}

theorem Gained.nothing (w : Writer) (bs : Bytes) : w.Gained w bs [] :=
  ⟨List.nil_prefix, (List.append_nil _).symm, Iff.rfl⟩

theorem Gained.append (h : w.Gained w' bs p) (cs : Bytes) : w.Gained w' (bs ++ cs) p :=
  ⟨h.taken.trans (List.prefix_append bs cs), h.written, h.canFlush_iff⟩

theorem Gained.trans (h : w.Gained w' bs bs) (h' : w'.Gained w'' cs q) :
    w.Gained w'' (bs ++ cs) (bs ++ q) := by
  refine ⟨(List.prefix_append_right_inj bs).mpr h'.taken, ?_, h'.canFlush_iff.trans h.canFlush_iff⟩
  rw [h'.written, h.written, List.append_assoc]

/-- What was not taken whole is not so with more behind it. -/
theorem Gained.ne_append (h : w.Gained w' bs p) (hne : p ≠ bs) (cs : Bytes) : p ≠ bs ++ cs := by
  rintro rfl
  exact hne (h.taken.eq_of_length_le (by simp))

theorem canFlush_congr (hfault : w'.flushFault = w.flushFault) (hflushes : w'.flushes = w.flushes) :
    w'.CanFlush ↔ w.CanFlush := by
  unfold CanFlush flush
  rw [hfault, hflushes]
  split <;> exact Iff.rfl

end Gained

/-- A flush passes everything on, or it fails and leaves the writer as it is. -/
theorem flush_cases (w : Writer) :
    (∃ w', w.flush = (.ok (), w') ∧ w.CanFlush ∧ w'.written = w.written ∧ w'.Flushed) ∨
      ∃ fault, w.flush = (.error fault, w) ∧ ¬ w.CanFlush := by
  unfold CanFlush flush
  split
  · exact .inl ⟨_, rfl, rfl, rfl, rfl⟩
  · exact .inr ⟨_, rfl, nofun⟩
  · exact .inl ⟨_, rfl, rfl, rfl, rfl⟩

/-- A line is taken whole just if writing it goes well. -/
theorem exists_gained_write (bs : Bytes) (w : Writer) :
    ∃ p, w.Gained (w.write bs).2 bs p ∧ ((w.write bs).1 = .ok () ↔ p = bs) := by
  unfold write
  split
  · exact ⟨bs, ⟨List.prefix_rfl, rfl, canFlush_congr rfl rfl⟩, iff_of_true rfl rfl⟩
  · rename_i n _
    refine ⟨bs.take n, ⟨List.take_prefix n bs, rfl, canFlush_congr rfl rfl⟩, ?_⟩
    rw [List.take_eq_self_iff]
    by_cases h : bs.length ≤ n
    · exact iff_of_true (if_pos h) h
    · exact iff_of_false (by simp [h]) h

end Writer

/-! ## The lines in order -/

namespace Report

/-- What the lines put on one stream. -/
def textOf (stream : OutputStream) (ls : List (OutputStream × String)) : Bytes := text ⟨ls, 0⟩ stream

section Cons

variable (line : String) (ls : List (OutputStream × String))

@[simp] theorem textOf_out_cons_out :
    textOf .out ((.out, line) :: ls) = lineBytes line ++ textOf .out ls := rfl

@[simp] theorem textOf_err_cons_err :
    textOf .err ((.err, line) :: ls) = lineBytes line ++ textOf .err ls := rfl

@[simp] theorem textOf_out_cons_err : textOf .out ((.err, line) :: ls) = textOf .out ls := rfl

@[simp] theorem textOf_err_cons_out : textOf .err ((.out, line) :: ls) = textOf .err ls := rfl

end Cons

/-- No line for standard output comes behind one for standard error. -/
def OutFirst (ls : List (OutputStream × String)) : Prop :=
  ls.Pairwise fun l l' => l'.1 = .out → l.1 = .out

theorem OutFirst.textOf_eq_nil {line : String} {ls : List (OutputStream × String)}
    (h : OutFirst ((.err, line) :: ls)) : textOf .out ls = [] := by
  have hnone : ls.filter (·.1 == OutputStream.out) = [] := by
    rw [List.filter_eq_nil_iff]
    intro l hl hout
    cases List.rel_of_pairwise_cons h hl (beq_iff_eq.mp hout)
  rw [textOf, text, hnone]
  rfl

/-- What has become of the lines: `p` and `q` are what the two streams have taken of their texts. -/
structure Progress (ls : List (OutputStream × String)) (out err : Writer) (result : Except Fault Unit)
    (out' err' : Writer) (p q : Bytes) : Prop where
  out : out.Gained out' (textOf .out ls) p
  err : err.Gained err' (textOf .err ls) q
  ok_iff : result = .ok () ↔ p = textOf .out ls ∧ q = textOf .err ls
  in_order : OutFirst ls → p ≠ textOf .out ls → q = []

section Progress

variable {line : String} {ls : List (OutputStream × String)} {out err w out' err' : Writer} {fault : Fault}
  {result : Except Fault Unit} {p q : Bytes}

theorem Progress.cons_out (hline : out.Gained w (lineBytes line) (lineBytes line))
    (h : Progress ls w err result out' err' p q) :
    Progress ((.out, line) :: ls) out err result out' err' (lineBytes line ++ p) q where
  out := hline.trans h.out
  err := h.err
  ok_iff := by
    rw [h.ok_iff, textOf_out_cons_out, textOf_err_cons_out, List.append_right_inj]
  in_order := by
    intro hfirst hne
    rw [textOf_out_cons_out, ne_eq, List.append_right_inj] at hne
    exact h.in_order (List.Pairwise.of_cons hfirst) hne

theorem Progress.cons_err (hline : err.Gained w (lineBytes line) (lineBytes line))
    (h : Progress ls out w result out' err' p q) :
    Progress ((.err, line) :: ls) out err result out' err' p (lineBytes line ++ q) where
  out := h.out
  err := hline.trans h.err
  ok_iff := by
    rw [h.ok_iff, textOf_out_cons_err, textOf_err_cons_err, List.append_right_inj]
  in_order := by
    -- nothing is left for standard output, so nothing of it is missing
    intro hfirst hne
    have htaken := h.out.taken
    rw [textOf_out_cons_err, hfirst.textOf_eq_nil] at hne
    rw [hfirst.textOf_eq_nil] at htaken
    exact absurd (List.prefix_nil.mp htaken) hne

theorem Progress.refused_out (hline : out.Gained w (lineBytes line) p) (hne : p ≠ lineBytes line) :
    Progress ((.out, line) :: ls) out err (.error fault) w err p [] where
  out := hline.append _
  err := .nothing err _
  ok_iff := iff_of_false nofun fun h => hline.ne_append hne _ h.1
  in_order := fun _ _ => rfl

theorem Progress.refused_err (hline : err.Gained w (lineBytes line) q) (hne : q ≠ lineBytes line) :
    Progress ((.err, line) :: ls) out err (.error fault) out w [] q where
  out := .nothing out _
  err := hline.append _
  ok_iff := iff_of_false nofun fun h => hline.ne_append hne _ h.2
  in_order := by
    intro hfirst hnotall
    rw [textOf_out_cons_err, hfirst.textOf_eq_nil] at hnotall
    exact absurd rfl hnotall

end Progress

/-- **Lines are written up to the first that is not taken whole.** -/
theorem exists_progress (ls : List (OutputStream × String)) (out err : Writer) : ∃ p q,
    Progress ls out err (writeLines ls out err).1 (writeLines ls out err).2.1
      (writeLines ls out err).2.2 p q := by
  induction ls generalizing out err with
  | nil => exact ⟨[], [], .nothing out _, .nothing err _, iff_of_true rfl ⟨rfl, rfl⟩, fun _ _ => rfl⟩
  | cons l ls ih =>
    obtain ⟨stream, line⟩ := l
    cases stream with
    | out =>
      obtain ⟨p, hline, hok⟩ := out.exists_gained_write (lineBytes line)
      rw [writeLines]
      cases hwrite : out.write (lineBytes line) with
      | mk result w =>
        rw [hwrite] at hline hok
        cases result with
        | error fault =>
          have hne : p ≠ lineBytes line := fun h => by cases hok.mpr h
          exact ⟨p, [], .refused_out hline hne⟩
        | ok =>
          obtain rfl := hok.mp rfl
          obtain ⟨p, q, hrest⟩ := ih w err
          exact ⟨_, q, hrest.cons_out hline⟩
    | err =>
      obtain ⟨q, hline, hok⟩ := err.exists_gained_write (lineBytes line)
      rw [writeLines]
      cases hwrite : err.write (lineBytes line) with
      | mk result w =>
        rw [hwrite] at hline hok
        cases result with
        | error fault =>
          have hne : q ≠ lineBytes line := fun h => by cases hok.mpr h
          exact ⟨[], q, .refused_err hline hne⟩
        | ok =>
          obtain rfl := hok.mp rfl
          obtain ⟨p, q, hrest⟩ := ih out w
          exact ⟨p, _, hrest.cons_err hline⟩

/-! ## Both streams flushed -/

/-- What has become of a report: `p` and `q` are what the two streams have taken of their texts. -/
structure Delivered (r : Report) (out err : Writer) (result : Except Fault Nat) (out' err' : Writer)
    (p q : Bytes) : Prop where
  out_taken : p <+: r.text .out
  err_taken : q <+: r.text .err
  out_written : out'.written = out.written ++ p
  err_written : err'.written = err.written ++ q
  ok_iff : result = .ok r.code ↔
    p = r.text .out ∧ q = r.text .err ∧ out.CanFlush ∧ err.CanFlush
  ok_or_error : result = .ok r.code ∨ ∃ fault, result = .error fault
  flushed : result = .ok r.code → out'.Flushed ∧ err'.Flushed
  in_order : OutFirst r.lines → p ≠ r.text .out → q = []

section Delivered

variable {r : Report} {out err out₁ err₁ out' err' : Writer} {result : Except Fault Unit} {fault : Fault}
  {p q : Bytes}

theorem Delivered.of_failed (h : Progress r.lines out err result out₁ err₁ p q)
    (hout : out'.written = out₁.written) (herr : err'.written = err₁.written)
    (hnot : ¬ (p = r.text .out ∧ q = r.text .err ∧ out.CanFlush ∧ err.CanFlush)) :
    Delivered r out err (.error fault) out' err' p q where
  out_taken := h.out.taken
  err_taken := h.err.taken
  out_written := hout.trans h.out.written
  err_written := herr.trans h.err.written
  ok_iff := iff_of_false (fun hok => by cases hok) hnot
  ok_or_error := .inr ⟨fault, rfl⟩
  flushed := fun hok => by cases hok
  in_order := h.in_order

theorem Delivered.of_flushed (h : Progress r.lines out err (.ok ()) out₁ err₁ p q)
    (hcanOut : out₁.CanFlush) (hcanErr : err₁.CanFlush)
    (hout : out'.written = out₁.written) (herr : err'.written = err₁.written)
    (hflushedOut : out'.Flushed) (hflushedErr : err'.Flushed) :
    Delivered r out err (.ok r.code) out' err' p q where
  out_taken := h.out.taken
  err_taken := h.err.taken
  out_written := hout.trans h.out.written
  err_written := herr.trans h.err.written
  ok_iff := by
    obtain ⟨hp, hq⟩ := h.ok_iff.mp rfl
    exact iff_of_true rfl ⟨hp, hq, h.out.canFlush_iff.mp hcanOut, h.err.canFlush_iff.mp hcanErr⟩
  ok_or_error := .inl rfl
  flushed := fun _ => ⟨hflushedOut, hflushedErr⟩
  in_order := h.in_order

end Delivered

/-- **The exit code counts only if everything was written and flushed.** -/
theorem exists_delivered (r : Report) (out err : Writer) : ∃ p q,
    Delivered r out err (r.deliver out err).1 (r.deliver out err).2.1 (r.deliver out err).2.2 p q := by
  obtain ⟨p, q, h⟩ := exists_progress r.lines out err
  refine ⟨p, q, ?_⟩
  rw [deliver]
  cases hlines : writeLines r.lines out err with
  | mk result streams =>
    obtain ⟨out₁, err₁⟩ := streams
    rw [hlines] at h
    cases result with
    | error fault =>
      refine .of_failed h rfl rfl fun hall => ?_
      cases h.ok_iff.mpr ⟨hall.1, hall.2.1⟩
    | ok =>
      rcases out₁.flush_cases with ⟨out₂, hflush, hcan, hsame, hflushed⟩ | ⟨fault, hflush, hcannot⟩
      · rcases err₁.flush_cases with ⟨err₂, hflush', hcan', hsame', hflushed'⟩ | ⟨fault, hflush', hcannot⟩
        · simp only [hflush, hflush']
          exact .of_flushed h hcan hcan' hsame hsame' hflushed hflushed'
        · simp only [hflush, hflush']
          refine .of_failed h hsame rfl fun hall => hcannot ?_
          exact h.err.canFlush_iff.mpr hall.2.2.2
      · simp only [hflush]
        refine .of_failed h rfl rfl fun hall => hcannot ?_
        exact h.out.canFlush_iff.mpr hall.2.2.1

theorem deliver_working (r : Report) : ∃ out err, r.deliver .working .working = (.ok r.code, out, err) ∧
    out.written = r.text .out ∧ err.written = r.text .err := by
  have hworking : Writer.working.Reliable := ⟨rfl, rfl⟩
  rw [deliver, writeLines_of_reliable hworking hworking r.lines r.code]
  exact ⟨_, _, rfl, rfl, rfl⟩

end Report

/-! ## Every convention -/

theorem Convention.outFirst_report (c : Convention) (r : Ruling) : Report.OutFirst (c.report r).lines := by
  have hmessage : ∀ stream, messageLine stream r = [] ∨ messageLine stream r = [(stream, r.message)] :=
    fun stream => by
      unfold messageLine
      split
      · exact .inl rfl
      · exact .inr rfl
  cases c with
  | plain => rcases hmessage .err with h | h <;> simp [report, h, Report.OutFirst]
  | testlib => exact List.pairwise_singleton _ _
  | cms => rcases hmessage .err with h | h <;> simp [report, h, Report.OutFirst]
  | themis => rcases hmessage .out with h | h <;> simp [report, h, Report.OutFirst]

/-- **A verdict is returned only if it was reported completely.** Of any two writers, each takes a
beginning of the text for it. The exit code is returned just if each takes it all and can be flushed,
and then nothing is held back; else there is an error. If something is missing on standard output,
there is nothing on standard error. Two writers without limits take it all. -/
theorem Convention.deliver_whole_iff (c : Convention) (r : Ruling) (out err : Writer) :
    let report := c.report r
    let run := report.deliver out err
    (∃ p q, p <+: report.text .out ∧ q <+: report.text .err ∧
      run.2.1.written = out.written ++ p ∧ run.2.2.written = err.written ++ q ∧
      (run.1 = .ok report.code ↔
        p = report.text .out ∧ q = report.text .err ∧ out.CanFlush ∧ err.CanFlush) ∧
      (run.1 = .ok report.code → run.2.1.Flushed ∧ run.2.2.Flushed) ∧
      (run.1 = .ok report.code ∨ ∃ fault, run.1 = .error fault) ∧
      (p ≠ report.text .out → q = [])) ∧
    ∃ out' err', report.deliver .working .working = (.ok report.code, out', err') ∧
      out'.written = report.text .out ∧ err'.written = report.text .err := by
  intro report run
  obtain ⟨p, q, h⟩ := report.exists_delivered out err
  refine ⟨⟨p, q, h.out_taken, h.err_taken, h.out_written, h.err_written, h.ok_iff, h.flushed,
    h.ok_or_error, ?_⟩, report.deliver_working⟩
  exact h.in_order (c.outFirst_report r)

end Referee
