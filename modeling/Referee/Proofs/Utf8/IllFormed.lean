import Mathlib.Tactic.SplitIfs
import Referee.Proofs.Utf8

/-!
# Maximal ill-formed parts

Where no character is encoded, the ill-formed part is the longest beginning of an encoded character, or
one byte if not even that begins one. A byte string falls into encoded characters and such parts in one
way (`Parts.unique`), and these are what `decode` reports (`parts_iff`): its machine leaves a sequence
at the first byte that no encoded character has there.
-/

namespace Referee.Utf8

/-- `part` is the ill-formed part at the front of `part ++ rest`. -/
structure IllFormed (part rest : Bytes) : Prop where
  ne_nil : part ≠ []
  no_char : ∀ c, ¬ String.utf8EncodeChar c <+: part ++ rest
  begins : part.length = 1 ∨ ∃ c, part <+: String.utf8EncodeChar c
  maximal : ∀ longer, longer <+: part ++ rest → part.length < longer.length →
    ∀ c, ¬ longer <+: String.utf8EncodeChar c

/-- `part` is the character, or the ill-formed part, at the front of `part ++ rest`. -/
inductive Front : Option Char → Bytes → Bytes → Prop where
  | char (c : Char) (rest : Bytes) : Front (some c) (String.utf8EncodeChar c) rest
  | illFormed {part rest : Bytes} (h : IllFormed part rest) : Front none part rest

/-- The encoded characters and the ill-formed parts of a byte string, in order. -/
inductive Parts : Bytes → List (Option Char) → Prop where
  | nil : Parts [] []
  | cons {o : Option Char} {part rest : Bytes} {os : List (Option Char)} (hfront : Front o part rest)
      (h : Parts rest os) : Parts (part ++ rest) (o :: os)

/-! ## What was read does not matter -/

section Older

variable (older : List (Option Char))

/-- The state with more read before. -/
def State.after (s : State) : State := ⟨s.read ++ older, s.pending⟩

theorem lead_append (read : List (Option Char)) (b : UInt8) :
    State.lead (read ++ older) b = (State.lead read b).after older := by
  unfold State.lead State.after
  split_ifs <;> rfl

theorem push_after (s : State) (b : UInt8) : (s.after older).push b = (s.push b).after older := by
  obtain ⟨read, pending⟩ := s
  cases pending with
  | idle => exact lead_append older read b
  | inside lo hi left code =>
    unfold State.push State.after
    simp only
    split
    · cases left <;> rfl
    · exact lead_append older (none :: read) b

theorem foldl_push_after (s : State) (bs : Bytes) :
    bs.foldl State.push (s.after older) = (bs.foldl State.push s).after older := by
  induction bs generalizing s with
  | nil => rfl
  | cons b bs ih => rw [List.foldl_cons, List.foldl_cons, push_after, ih]

theorem finish_after (s : State) : (s.after older).finish = older.reverse ++ s.finish := by
  obtain ⟨read, pending⟩ := s
  cases pending <;> simp [State.finish, State.after]

end Older

/-- Reading from the start. -/
def run (bs : Bytes) : State := bs.foldl State.push .start

theorem decode_eq (bs : Bytes) : decode bs = (run bs).finish := rfl

theorem run_append (bs cs : Bytes) : run (bs ++ cs) = cs.foldl State.push (run bs) :=
  List.foldl_append

theorem run_utf8EncodeChar (c : Char) : run (String.utf8EncodeChar c) = ⟨[some c], .idle⟩ :=
  foldl_push_utf8EncodeChar c []

/-- Behind a part that has been reported, reading starts anew. -/
theorem decode_of_idle {rest : Bytes} {o : Option Char} {s : State}
    (h : s = rest.foldl State.push ⟨[o], .idle⟩) : s.finish = o :: decode rest := by
  rw [h]
  exact (congrArg State.finish (foldl_push_after [o] .start rest)).trans (finish_after [o] (run rest))

/-! ## What is read is kept -/

theorem read_suffix_foldl (s : State) (bs : Bytes) : s.read <:+ (bs.foldl State.push s).read := by
  have hafter := foldl_push_after s.read ⟨[], s.pending⟩ bs
  have hs : State.after s.read ⟨[], s.pending⟩ = s := rfl
  rw [hs] at hafter
  rw [hafter]
  exact List.suffix_append _ _

theorem read_suffix_run {bs cs : Bytes} (h : bs <+: cs) : (run bs).read <:+ (run cs).read := by
  obtain ⟨rest, rfl⟩ := h
  rw [run_append]
  exact read_suffix_foldl _ rest

/-- A sequence that was found ill-formed begins no character. -/
theorem not_prefix_of_none {bs : Bytes} (h : none ∈ (run bs).read) (c : Char) :
    ¬ bs <+: String.utf8EncodeChar c := by
  intro hprefix
  have hmem := (read_suffix_run hprefix).subset h
  rw [run_utf8EncodeChar] at hmem
  cases List.mem_singleton.mp hmem

/-- As long as nothing was reported, no character is complete. -/
theorem not_encode_prefix_of_nil {bs : Bytes} (h : (run bs).read = []) (c : Char) :
    ¬ String.utf8EncodeChar c <+: bs := by
  intro hprefix
  have hsuffix := read_suffix_run hprefix
  rw [run_utf8EncodeChar, h] at hsuffix
  cases List.suffix_nil.mp hsuffix

/-- Of two characters neither is encoded as a beginning of the other. -/
theorem char_eq_of_encode {c d : Char} (h : String.utf8EncodeChar c <+: String.utf8EncodeChar d) :
    c = d := by
  have hsuffix := read_suffix_run h
  rw [run_utf8EncodeChar, run_utf8EncodeChar] at hsuffix
  cases hsuffix.eq_of_length rfl
  rfl

/-! ## Parts found by the machine -/

theorem Completes.exists_char {part : Bytes} {lo hi : UInt8} {code left : Nat}
    (h : Completes part lo hi code left) (hle : lo ≤ hi) : ∃ c, part <+: String.utf8EncodeChar c := by
  induction left generalizing part lo hi code with
  | zero => exact ⟨_, [lo], h lo (UInt8.le_refl lo) hle⟩
  | succ left ih =>
    obtain ⟨c, hc⟩ := ih (h lo (UInt8.le_refl lo) hle) (by decide)
    exact ⟨c, (List.prefix_append part [lo]).trans hc⟩

section Ill

variable {part rest : Bytes}

/-- If the byte behind a part rules out every character, the part is maximal. -/
theorem IllFormed.of_break (hne : part ≠ []) (hchar : ∀ c, ¬ String.utf8EncodeChar c <+: part)
    (hbegins : part.length = 1 ∨ ∃ c, part <+: String.utf8EncodeChar c)
    (hbreak : ∀ b ∈ rest.head?, none ∈ (run (part ++ [b])).read) : IllFormed part rest := by
  have hmaximal : ∀ longer, longer <+: part ++ rest → part.length < longer.length →
      ∀ c, ¬ longer <+: String.utf8EncodeChar c := by
    intro longer hlonger hlt c hc
    obtain ⟨more, rfl⟩ := List.prefix_of_prefix_length_le (List.prefix_append part rest) hlonger
      (Nat.le_of_lt hlt)
    rw [List.prefix_append_right_inj] at hlonger
    cases more with
    | nil => simp at hlt
    | cons b more =>
      obtain ⟨left, rfl⟩ := hlonger
      refine not_prefix_of_none (hbreak b rfl) c (List.IsPrefix.trans ?_ hc)
      rw [List.prefix_append_right_inj]
      exact List.prefix_append [b] more
  refine ⟨hne, fun c hc => ?_, hbegins, hmaximal⟩
  rcases Nat.lt_or_ge part.length (String.utf8EncodeChar c).length with hlt | hge
  · exact hmaximal _ hc hlt c List.prefix_rfl
  · exact hchar c (List.prefix_of_prefix_length_le hc (List.prefix_append part rest) hge)

/-- A byte that begins no character is ill-formed alone. -/
theorem IllFormed.of_stray {b : UInt8} (h : run [b] = ⟨[none], .idle⟩) (rest : Bytes) :
    IllFormed [b] rest := by
  have hnone : none ∈ (run [b]).read := by
    rw [h]
    exact List.mem_singleton_self none
  refine .of_break (List.cons_ne_nil b []) (fun c hc => ?_) (.inl rfl) fun b' _ => ?_
  · have hle := hc.length_le
    have hpos := List.length_pos_iff.mpr (utf8EncodeChar_ne_nil c)
    have heq : String.utf8EncodeChar c = [b] := hc.eq_of_length (by
      rw [List.length_singleton] at hle ⊢
      omega)
    exact not_prefix_of_none hnone c (heq ▸ List.prefix_rfl)
  · exact (read_suffix_run (List.prefix_append [b] [b'])).subset hnone

end Ill

theorem Front.ne_nil {o : Option Char} {part rest : Bytes} (h : Front o part rest) : part ≠ [] := by
  cases h with
  | char c => exact utf8EncodeChar_ne_nil c
  | illFormed h => exact h.ne_nil

/-- A byte out of range closes the sequence and is read afresh. -/
theorem push_outside {lo hi b : UInt8} (h : ¬ (lo ≤ b ∧ b ≤ hi)) (read : List (Option Char))
    (left code : Nat) :
    State.push ⟨read, .inside lo hi left code⟩ b = State.push ⟨none :: read, .idle⟩ b := by
  have hout : (decide (lo ≤ b) && decide (b ≤ hi)) = false := by simpa using h
  simp only [State.push, hout, Bool.false_eq_true, if_false]

/-- The front is found, and decoding goes on behind it. -/
def Found (bs : Bytes) : Prop :=
  ∃ o part rest, bs = part ++ rest ∧ Front o part rest ∧ decode bs = o :: decode rest

/-- Inside a sequence the next bytes complete it or show that it is ill-formed. -/
theorem found_of_inside {part : Bytes} {lo hi : UInt8} {left code : Nat}
    (hrun : run part = ⟨[], .inside lo hi left code⟩) (hne : part ≠ [])
    (hpart : Completes part lo hi code left) (hle : lo ≤ hi) (bs : Bytes) : Found (part ++ bs) := by
  have hread : (run part).read = [] := by rw [hrun]
  have hbegins := hpart.exists_char hle
  induction bs generalizing part lo hi left code with
  | nil =>
    refine ⟨none, part, [], rfl, .illFormed ?_, ?_⟩
    · exact .of_break hne (not_encode_prefix_of_nil hread) (.inr hbegins) nofun
    · rw [List.append_nil, decode_eq, hrun]
      rfl
  | cons b bs ih =>
    by_cases hin : lo ≤ b ∧ b ≤ hi
    · cases left with
      | zero =>
        have hchar := hpart b hin.1 hin.2
        refine ⟨some _, part ++ [b], bs, List.append_cons part b bs, hchar ▸ Front.char _ bs, ?_⟩
        rw [decode_eq, run_append, hrun]
        refine decode_of_idle ?_
        rw [List.foldl_cons, push_last hin.1 hin.2]
      | succ left =>
        have hnext := hpart b hin.1 hin.2
        have hrun' : run (part ++ [b]) =
            ⟨[], .inside 0x80 0xBF left (code * 64 + (b.toNat - 0x80))⟩ := by
          rw [run_append, hrun, List.foldl_cons, List.foldl_nil, push_next hin.1 hin.2]
        rw [List.append_cons]
        exact ih hrun' (by simp) hnext (by decide) (by rw [hrun']) (hnext.exists_char (by decide))
    · refine ⟨none, part, b :: bs, rfl, .illFormed ?_, ?_⟩
      · refine .of_break hne (not_encode_prefix_of_nil hread) (.inr hbegins) fun b' hb' => ?_
        obtain rfl : b = b' := Option.some.inj hb'
        rw [run_append, hrun, List.foldl_cons, List.foldl_nil, push_outside hin]
        exact (read_suffix_foldl ⟨[none], .idle⟩ [b]).subset (List.mem_singleton_self none)
      · rw [decode_eq, run_append, hrun]
        refine decode_of_idle ?_
        rw [List.foldl_cons, List.foldl_cons, push_outside hin]

theorem found_of_ne_nil {bs : Bytes} (h : bs ≠ []) : Found bs := by
  obtain ⟨b, bs, rfl⟩ := List.exists_cons_of_ne_nil h
  have hne : [b] ≠ [] := List.cons_ne_nil b []
  have hrun : run [b] = State.lead [] b := rfl
  by_cases hascii : b.toNat ≤ 0x7F
  · have hnat := toNat_ofNat_of_isValidChar (n := b.toNat) (.inl (by omega))
    have hone : String.utf8EncodeChar (Char.ofNat b.toNat) = [b] := by
      rw [Bytes.utf8EncodeChar_of_ascii (by omega), hnat, UInt8.ofNat_toNat]
    refine ⟨some (Char.ofNat b.toNat), [b], bs, rfl, hone ▸ .char _ bs, decode_of_idle ?_⟩
    rw [List.foldl_cons, State.start, push_idle, lead_of_ascii hascii]
  by_cases hstray : 0x80 ≤ b.toNat ∧ b.toNat < 0xC2 ∨ 0xF4 < b.toNat
  · rw [lead_stray hstray] at hrun
    refine ⟨none, [b], bs, rfl, .illFormed (.of_stray hrun bs), decode_of_idle ?_⟩
    rw [List.foldl_cons, State.start, push_idle, lead_stray hstray]
  by_cases htwo : b.toNat ≤ 0xDF
  · have hlo : 0xC2 ≤ b.toNat := by omega
    rw [lead_two hlo htwo] at hrun
    exact found_of_inside hrun hne (completes_two hlo htwo) (by decide) bs
  have hle : leastNext b ≤ greatestNext b := by
    unfold leastNext greatestNext
    grind
  by_cases hthree : b.toNat ≤ 0xEF
  · have hlo : 0xE0 ≤ b.toNat := by omega
    rw [lead_three hlo hthree] at hrun
    exact found_of_inside hrun hne (completes_three hlo hthree) hle bs
  · have hlo : 0xF0 ≤ b.toNat := by omega
    have hhi : b.toNat ≤ 0xF4 := by omega
    rw [lead_four hlo hhi] at hrun
    exact found_of_inside hrun hne (completes_four hlo hhi) hle bs

theorem parts_decode (bs : Bytes) : Parts bs (decode bs) := by
  induction hn : bs.length using Nat.strongRecOn generalizing bs with
  | _ n ih =>
    subst hn
    by_cases hnil : bs = []
    · subst hnil
      exact .nil
    · obtain ⟨o, part, rest, rfl, hfront, hdecode⟩ := found_of_ne_nil hnil
      have hpos := List.length_pos_iff.mpr hfront.ne_nil
      have hlt : rest.length < (part ++ rest).length := by
        rw [List.length_append]
        omega
      rw [hdecode]
      exact .cons hfront (ih rest.length hlt rest rfl)

/-! ## There is one way -/

section Unique

variable {o o' : Option Char} {part part' rest rest' : Bytes}

/-- Of two ill-formed parts at one place neither is longer. -/
theorem IllFormed.length_le (h : IllFormed part rest) (h' : IllFormed part' rest')
    (heq : part ++ rest = part' ++ rest') : part'.length ≤ part.length := by
  refine Nat.le_of_not_lt fun hlt => ?_
  have hprefix : part' <+: part ++ rest := heq ▸ List.prefix_append part' rest'
  have hpos := List.length_pos_iff.mpr h.ne_nil
  rcases h'.begins with hone | ⟨c, hc⟩
  · omega
  · exact h.maximal part' hprefix hlt c hc

theorem Front.unique (h : Front o part rest) (h' : Front o' part' rest')
    (heq : part ++ rest = part' ++ rest') : o = o' ∧ part = part' ∧ rest = rest' := by
  cases h with
  | char c =>
    cases h' with
    | char d =>
      have hc : String.utf8EncodeChar c <+: String.utf8EncodeChar d ++ rest' :=
        heq ▸ List.prefix_append _ rest
      obtain rfl : c = d := by
        rcases List.prefix_or_prefix_of_prefix hc (List.prefix_append _ rest') with h | h
        · exact char_eq_of_encode h
        · exact (char_eq_of_encode h).symm
      exact ⟨rfl, rfl, List.append_cancel_left heq⟩
    | illFormed hill => exact absurd (heq ▸ List.prefix_append _ rest) (hill.no_char c)
  | illFormed hill =>
    cases h' with
    | char d => exact absurd (heq ▸ List.prefix_append _ rest') (hill.no_char d)
    | illFormed hill' =>
      have hlen := Nat.le_antisymm (hill'.length_le hill heq.symm) (hill.length_le hill' heq)
      obtain ⟨rfl, rfl⟩ := List.append_inj heq hlen
      exact ⟨rfl, rfl, rfl⟩

theorem Parts.unique {bs : Bytes} {os os' : List (Option Char)} (h : Parts bs os) (h' : Parts bs os') :
    os = os' := by
  induction h generalizing os' with
  | nil =>
    generalize hbs : ([] : Bytes) = bs at h'
    cases h' with
    | nil => rfl
    | cons hfront => exact absurd (List.append_eq_nil_iff.mp hbs.symm).1 hfront.ne_nil
  | @cons o part rest os hfront _ ih =>
    generalize hbs : part ++ rest = bs at h'
    cases h' with
    | nil => exact absurd (List.append_eq_nil_iff.mp hbs).1 hfront.ne_nil
    | cons hfront' h' =>
      obtain ⟨rfl, rfl, rfl⟩ := hfront.unique hfront' hbs
      rw [ih h']

end Unique

/-- **`decode` reports exactly the characters and the maximal ill-formed parts.** -/
theorem parts_iff {bs : Bytes} {os : List (Option Char)} : Parts bs os ↔ os = decode bs :=
  ⟨fun h => h.unique (parts_decode bs), fun h => h ▸ parts_decode bs⟩

example : decode [97, 0xF0, 0x9F, 0x98, 65, 0xED, 0xA0] = [some 'a', none, some 'A', none, none] := by decide

/-- The text of a byte string with U+FFFD in the place of each ill-formed part. -/
def ShownAs (bs : Bytes) (cs : List Char) : Prop := ∃ os, Parts bs os ∧ cs = os.map (·.getD '\uFFFD')

theorem shownAs_iff {bs : Bytes} {cs : List Char} : ShownAs bs cs ↔ cs = decodeLossy bs := by
  simp only [ShownAs, parts_iff, exists_eq_left]
  exact Iff.rfl

end Referee.Utf8
