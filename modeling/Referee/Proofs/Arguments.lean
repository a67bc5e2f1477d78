import Mathlib.Data.List.Nodup
import Referee.Arguments

/-!
# Arguments and the slots of a layout

Each argument is assigned to the slot beside it, and a later one replaces an earlier one for the same
slot. So a layout is accepted if its slots are known and each of the three is among them
(`Binding.exists_ofArguments_iff`), and a file is the argument at the last position of its slot
(`Binding.file_of_ofArguments`). That loses an argument only if a slot comes twice
(`Binding.ofArguments_keeps_iff`).
-/

namespace Referee

/-! ## Slots -/

namespace Slot

def names : List String := all.map name

theorem name_mem_names (slot : Slot) : slot.name ∈ names := by cases slot <;> decide

theorem exists_of_mem_names {s : String} (h : s ∈ names) : ∃ slot : Slot, s = slot.name := by
  obtain ⟨slot, -, rfl⟩ := List.mem_map.mp h
  exact ⟨slot, rfl⟩

theorem name_inj {slot slot' : Slot} : slot.name = slot'.name ↔ slot = slot' := by
  constructor
  · cases slot <;> cases slot' <;> decide
  · rintro rfl
    rfl

theorem ofName?_name (slot : Slot) : ofName? slot.name = some slot := by cases slot <;> rfl

theorem ofName?_of_not_mem {s : String} (h : s ∉ names) : ofName? s = none := by
  rw [ofName?, List.find?_eq_none]
  intro slot hslot hs
  exact h (beq_iff_eq.mp hs ▸ List.mem_map_of_mem hslot)

/-- Without repetition nothing comes again further on. -/
theorem not_mem_drop_of_nodup {slots : List String} (h : slots.Nodup) {i : Nat} {s : String}
    (hi : slots[i]? = some s) : s ∉ slots.drop (i + 1) := by
  obtain ⟨hlt, rfl⟩ := List.getElem?_eq_some_iff.mp hi
  have hdrop := h.sublist (List.drop_sublist i slots)
  rw [List.drop_eq_getElem_cons hlt] at hdrop
  exact (List.nodup_cons.mp hdrop).1

/-- Known slots, each of the three at least once. -/
def Covers (slots : List String) : Prop := ∀ s, s ∈ slots ↔ s ∈ names

/-- Without repetition these are the three slots in some order. -/
theorem covers_iff_perm {slots : List String} (h : slots.Nodup) : Covers slots ↔ slots.Perm names :=
  (List.perm_ext_iff_of_nodup h (by decide)).symm

theorem nodup_of_perm {slots : List String} (h : slots.Perm names) : slots.Nodup :=
  h.nodup_iff.mpr (by decide)

end Slot

/-- The file that a slot stands for. -/
def Binding.file (b : Binding) : Slot → String
  | .input => b.input
  | .output => b.output
  | .answer => b.answer

/-! ## One argument after the other -/

namespace PartialBinding

def file? (b : PartialBinding) : Slot → Option String
  | .input => b.input
  | .output => b.output
  | .answer => b.answer

theorem file?_assign (b : PartialBinding) (slot slot' : Slot) (file : String) :
    (b.assign slot file).file? slot' = if slot' = slot then some file else b.file? slot' := by
  cases slot <;> cases slot' <;> rfl

theorem complete?_eq_some_iff {b : PartialBinding} {binding : Binding} :
    b.complete? = some binding ↔ ∀ slot, b.file? slot = some (binding.file slot) := by
  obtain ⟨input, output, answer⟩ := b
  constructor
  · intro h
    match input, output, answer, h with
    | some _, some _, some _, rfl => exact fun slot => by cases slot <;> rfl
  · intro h
    obtain rfl : input = some binding.input := h .input
    obtain rfl : output = some binding.output := h .output
    obtain rfl : answer = some binding.answer := h .answer
    rfl

section AssignAll

variable {pairs : List (String × String)}

/-- The last argument for a slot. -/
def lastFile (slot : Slot) (pairs : List (String × String)) : Option String :=
  pairs.reverse.lookup slot.name

theorem lastFile_append (slot : Slot) (front pairs : List (String × String)) :
    lastFile slot (front ++ pairs) = (lastFile slot pairs).or (lastFile slot front) := by
  rw [lastFile, List.reverse_append, List.lookup_append, ← lastFile, ← lastFile]

theorem lastFile_cons (slot slot' : Slot) (file : String) (pairs : List (String × String)) :
    lastFile slot' ((slot.name, file) :: pairs) =
      (lastFile slot' pairs).or (if slot' = slot then some file else none) := by
  rw [lastFile, List.reverse_cons, List.lookup_append, List.lookup_cons, List.lookup_nil]
  by_cases h : slot' = slot
  · rw [if_pos h, h, beq_self_eq_true]
    rfl
  · rw [if_neg h, beq_false_of_ne (mt Slot.name_inj.mp h)]
    rfl

theorem isSome_lastFile_iff {slot : Slot} :
    (lastFile slot pairs).isSome = true ↔ slot.name ∈ pairs.map (·.1) := by
  simp only [lastFile, List.lookup_isSome_iff, List.mem_reverse, beq_iff_eq, List.mem_map]
  exact exists_congr fun p => and_congr_right fun _ => eq_comm

/-- What comes last for a slot is its last argument. -/
theorem lastFile_of_last {slot : Slot} {file : String} {i : Nat} (hi : pairs[i]? = some (slot.name, file))
    (hlast : slot.name ∉ (pairs.drop (i + 1)).map (·.1)) : lastFile slot pairs = some file := by
  obtain ⟨hlt, hget⟩ := List.getElem?_eq_some_iff.mp hi
  have hnone : lastFile slot (pairs.drop (i + 1)) = none := by
    rw [← Option.not_isSome_iff_eq_none, isSome_lastFile_iff]
    exact hlast
  have hsplit : pairs = pairs.take i ++ (slot.name, file) :: pairs.drop (i + 1) := by
    rw [← hget, ← List.drop_eq_getElem_cons hlt, List.take_append_drop]
  rw [hsplit, lastFile_append, lastFile_cons, hnone, if_pos rfl]
  rfl

/-- Arguments for known slots are assigned, the last one for each slot. -/
theorem assignAll_of_known (h : ∀ s ∈ pairs.map (·.1), s ∈ Slot.names) (b : PartialBinding) :
    ∃ b', b.assignAll pairs = .ok b' ∧
      ∀ slot, b'.file? slot = (lastFile slot pairs).or (b.file? slot) := by
  induction pairs generalizing b with
  | nil => exact ⟨b, rfl, fun _ => rfl⟩
  | cons pair pairs ih =>
    obtain ⟨s, file⟩ := pair
    rw [List.map_cons, List.forall_mem_cons] at h
    obtain ⟨slot, rfl⟩ := Slot.exists_of_mem_names h.1
    obtain ⟨b', hassign, hfile⟩ := ih h.2 (b.assign slot file)
    refine ⟨b', ?_, fun slot' => ?_⟩
    · rw [assignAll, Slot.ofName?_name]
      exact hassign
    · rw [hfile, lastFile_cons, file?_assign, Option.or_assoc]
      by_cases hslot : slot' = slot
      · rw [if_pos hslot, if_pos hslot]
        rfl
      · rw [if_neg hslot, if_neg hslot]
        rfl

/-- An unknown slot is refused. -/
theorem assignAll_of_unknown {s : String} (hs : s ∈ pairs.map (·.1)) (hunknown : s ∉ Slot.names)
    (b : PartialBinding) : ∃ detail, b.assignAll pairs = .error (.config detail) := by
  induction pairs generalizing b with
  | nil => cases hs
  | cons pair pairs ih =>
    obtain ⟨s', file⟩ := pair
    rw [assignAll]
    cases hslot : Slot.ofName? s' with
    | none => exact ⟨_, rfl⟩
    | some slot =>
      rw [List.map_cons] at hs
      rcases List.mem_cons.mp hs with rfl | hs
      · rw [Slot.ofName?_of_not_mem hunknown] at hslot
        cases hslot
      · exact ih hs (b.assign slot file)

end AssignAll

end PartialBinding

/-! ## The arguments of a layout -/

namespace Binding

open PartialBinding (lastFile assignAll_of_known assignAll_of_unknown isSome_lastFile_iff lastFile_of_last
  complete?_eq_some_iff)

variable {layout : String} {args : List String}

theorem ofArguments_of_length_ne (h : (Text.words layout).length ≠ args.length) :
    ∃ detail, ofArguments layout args = .error (.invalidArgument detail) :=
  ⟨_, if_neg h⟩

section Length

variable (h : (Text.words layout).length = args.length)

include h

theorem map_fst_zip_words : ((Text.words layout).zip args).map (·.1) = Text.words layout :=
  List.map_fst_zip (Nat.le_of_eq h)

theorem ofArguments_of_unknown {s : String} (hs : s ∈ Text.words layout) (hunknown : s ∉ Slot.names) :
    ∃ detail, ofArguments layout args = .error (.config detail) := by
  rw [← map_fst_zip_words h] at hs
  obtain ⟨detail, hassign⟩ := assignAll_of_unknown hs hunknown .empty
  refine ⟨detail, ?_⟩
  rw [ofArguments]
  simp only [h, if_true, hassign]

theorem ofArguments_of_known (hknown : ∀ s ∈ Text.words layout, s ∈ Slot.names) :
    ∃ b : PartialBinding, (∀ slot, b.file? slot = lastFile slot ((Text.words layout).zip args)) ∧
      (b.complete? = none → ∃ detail, ofArguments layout args = .error (.config detail)) ∧
      ∀ binding, b.complete? = some binding → ofArguments layout args = .ok binding := by
  rw [← map_fst_zip_words h] at hknown
  obtain ⟨b, hassign, hfile⟩ := assignAll_of_known hknown .empty
  refine ⟨b, fun slot => ?_, fun hnone => ?_, fun binding hsome => ?_⟩
  · rw [hfile]
    cases slot <;> exact Option.or_none
  · refine ⟨"argument layout is missing a slot: " ++ layout, ?_⟩
    simp only [ofArguments, h, if_true, hassign, hnone]
  · simp only [ofArguments, h, if_true, hassign, hsome]

/-- With as many arguments as slots, only the layout can be at fault. -/
theorem ofArguments_cases : (∃ b, ofArguments layout args = .ok b) ∨
    ∃ detail, ofArguments layout args = .error (.config detail) := by
  by_cases hknown : ∀ s ∈ Text.words layout, s ∈ Slot.names
  · obtain ⟨p, -, hnone, hsome⟩ := ofArguments_of_known h hknown
    cases hcomplete : p.complete? with
    | none => exact .inr (hnone hcomplete)
    | some binding => exact .inl ⟨binding, hsome binding hcomplete⟩
  · push Not at hknown
    obtain ⟨s, hs, hunknown⟩ := hknown
    exact .inr (ofArguments_of_unknown h hs hunknown)

end Length

/-- An accepted layout has known slots only, and each file is the last argument for its slot. -/
theorem ofArguments_eq_ok_iff {b : Binding} : ofArguments layout args = .ok b ↔
    (Text.words layout).length = args.length ∧ (∀ s ∈ Text.words layout, s ∈ Slot.names) ∧
      ∀ slot, lastFile slot ((Text.words layout).zip args) = some (b.file slot) := by
  by_cases hlen : (Text.words layout).length = args.length
  · by_cases hknown : ∀ s ∈ Text.words layout, s ∈ Slot.names
    · obtain ⟨p, hfile, hnone, hsome⟩ := ofArguments_of_known hlen hknown
      rw [and_iff_right hlen, and_iff_right hknown]
      simp only [← hfile, ← complete?_eq_some_iff]
      cases hcomplete : p.complete? with
      | none =>
        obtain ⟨detail, hargs⟩ := hnone hcomplete
        rw [hargs]
        exact iff_of_false nofun nofun
      | some binding => rw [hsome binding hcomplete, Except.ok.injEq, Option.some.injEq]
    · refine iff_of_false (fun hargs => ?_) fun h => hknown h.2.1
      push Not at hknown
      obtain ⟨s, hs, hunknown⟩ := hknown
      obtain ⟨detail, herror⟩ := ofArguments_of_unknown hlen hs hunknown
      cases hargs.symm.trans herror
  · obtain ⟨detail, hargs⟩ := ofArguments_of_length_ne hlen
    rw [hargs]
    exact iff_of_false nofun fun h => hlen h.1

/-- **A layout is accepted if it covers the three slots** and there are as many arguments. -/
theorem exists_ofArguments_iff : (∃ b, ofArguments layout args = .ok b) ↔
    (Text.words layout).length = args.length ∧ Slot.Covers (Text.words layout) := by
  constructor
  · rintro ⟨b, hargs⟩
    obtain ⟨hlen, hknown, hfiles⟩ := ofArguments_eq_ok_iff.mp hargs
    refine ⟨hlen, fun s => ⟨hknown s, fun hs => ?_⟩⟩
    obtain ⟨slot, rfl⟩ := Slot.exists_of_mem_names hs
    rw [← map_fst_zip_words hlen, ← isSome_lastFile_iff, hfiles slot]
    rfl
  · rintro ⟨hlen, hcovers⟩
    have hfiles : ∀ slot : Slot, ∃ file, lastFile slot ((Text.words layout).zip args) = some file := by
      intro slot
      rw [← Option.isSome_iff_exists, isSome_lastFile_iff, map_fst_zip_words hlen]
      exact (hcovers slot.name).mpr slot.name_mem_names
    obtain ⟨input, hinput⟩ := hfiles .input
    obtain ⟨output, houtput⟩ := hfiles .output
    obtain ⟨answer, hanswer⟩ := hfiles .answer
    refine ⟨⟨input, output, answer⟩, ofArguments_eq_ok_iff.mpr ⟨hlen, fun s => (hcovers s).mp, ?_⟩⟩
    intro slot
    cases slot <;> assumption

/-- A file is the argument at the last position of its slot. -/
theorem file_of_ofArguments {b : Binding} (h : ofArguments layout args = .ok b) {i : Nat} {slot : Slot}
    (hi : (Text.words layout)[i]? = some slot.name)
    (hlast : slot.name ∉ (Text.words layout).drop (i + 1)) : args[i]? = some (b.file slot) := by
  obtain ⟨hlen, -, hfiles⟩ := ofArguments_eq_ok_iff.mp h
  obtain ⟨hlt, -⟩ := List.getElem?_eq_some_iff.mp hi
  have harg : args[i]? = some args[i] := List.getElem?_eq_getElem (hlen ▸ hlt)
  have hpair : ((Text.words layout).zip args)[i]? = some (slot.name, args[i]) :=
    List.getElem?_zip_eq_some.mpr ⟨hi, harg⟩
  rw [← map_fst_zip_words hlen, ← List.map_drop] at hlast
  rw [harg, ← lastFile_of_last hpair hlast, hfiles slot]

/-- The arguments are accepted just with the three slots, each once, in some order, and then the file of
each slot is the argument beside it. -/
structure BindsOneToOne (layout : String) (args : List String) : Prop where
  accepts_iff : (∃ b, ofArguments layout args = .ok b) ↔
    (Text.words layout).length = args.length ∧ (Text.words layout).Perm Slot.names
  file : ∀ b, ofArguments layout args = .ok b → ∀ (i : Nat) (slot : Slot),
    (Text.words layout)[i]? = some slot.name → args[i]? = some (b.file slot)

theorem bindsOneToOne_of_nodup (h : (Text.words layout).length = args.length →
    Slot.Covers (Text.words layout) → (Text.words layout).Nodup) : BindsOneToOne layout args where
  accepts_iff := by
    refine exists_ofArguments_iff.trans (and_congr_right fun hlen => ⟨fun hcovers => ?_, fun hperm => ?_⟩)
    · exact (Slot.covers_iff_perm (h hlen hcovers)).mp hcovers
    · exact (Slot.covers_iff_perm (Slot.nodup_of_perm hperm)).mpr hperm
  file := by
    intro b hargs i slot hi
    obtain ⟨hlen, hcovers⟩ := exists_ofArguments_iff.mp ⟨b, hargs⟩
    exact file_of_ofArguments hargs hi (Slot.not_mem_drop_of_nodup (h hlen hcovers) hi)

/-- **Arguments are bound one to one unless a layout repeats a slot.** Another number of arguments than
of slots is an invalid argument, whatever the slots are, and any other failure is one of the layout. No
argument is lost but with a layout that covers the three slots, for as many arguments, and repeats one. -/
theorem ofArguments_keeps_iff (layout : String) (args : List String) :
    ((Text.words layout).length ≠ args.length →
      ∃ detail, ofArguments layout args = .error (.invalidArgument detail)) ∧
      ((Text.words layout).length = args.length → ∀ f, ofArguments layout args = .error f →
        ∃ detail, f = .config detail) ∧
      (BindsOneToOne layout args ↔ ((Text.words layout).length = args.length →
        Slot.Covers (Text.words layout) → (Text.words layout).Nodup)) := by
  refine ⟨ofArguments_of_length_ne, fun hlen f hf => ?_, fun hbinds hlen hcovers => ?_,
    bindsOneToOne_of_nodup⟩
  · rcases ofArguments_cases hlen with ⟨b, hok⟩ | ⟨detail, herror⟩
    · cases hok.symm.trans hf
    · exact ⟨detail, Except.error.inj (hf.symm.trans herror)⟩
  · have haccepted := exists_ofArguments_iff.mpr ⟨hlen, hcovers⟩
    exact Slot.nodup_of_perm (hbinds.accepts_iff.mp haccepted).2

/-- **A repeated slot loses an argument.** The first argument is for the input file, and so is the last,
which replaces it. -/
theorem ofArguments_drops_repeated :
    let layout := "\x7binput_file\x7d \x7boutput_file\x7d \x7banswer_file\x7d \x7binput_file\x7d"
    (Text.words layout).length = 4 ∧ ¬ (Text.words layout).Perm Slot.names ∧
      ofArguments layout ["a", "b", "c", "d"] = .ok ⟨"d", "b", "c"⟩ := by
  decide

end Binding

end Referee
