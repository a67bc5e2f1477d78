import Mathlib.Logic.Relation
import Referee.Proofs.Json.Objects
import Referee.Settings.Form

/-!
# Partial configurations

A configuration may give any of the fields, at the top level and in its three sections. It denotes the
default settings with those fields replaced (`Settings.Overrides.ofJson?`), wherever they stand and
whatever other members stand between them (`Settings.ofJson?_of_eqvGen`), unless a field is given twice
(`Settings.Repeats.ofJson?`). `Settings.ofText_object` states this for the text of a configuration.
-/

namespace Referee

/-! ## Sections -/

theorem ErrorMode.ofJson?_of_isWord {v : Json} {m : ErrorMode} (h : Json.IsWord name v m) :
    ofJson? v = some m :=
  h.choice? (by cases m <;> rfl)

theorem Convention.ofJson?_of_isWord {v : Json} {c : Convention} (h : Json.IsWord name v c) :
    ofJson? v = some c :=
  h.choice? (by cases c <;> rfl)

section Sections

variable {members members' : List (String × Json)}

namespace CheckerSettings

def fieldNames : List String := ["name", "precision", "error_mode", "pe_allowed"]

/-- The settings are the defaults with what the members give in their place. -/
structure Overrides (s : CheckerSettings) (members : List (String × Json)) : Prop where
  distinct : ¬ Json.Repeats fieldNames members
  name : Json.Gives members "name" (Json.Writes .text) standard.name s.name
  precision : Json.Gives members "precision" (Json.Writes fun n : UInt32 => .nat n.toNat)
    standard.precision s.precision
  errorMode : Json.Gives members "error_mode" (Json.IsWord ErrorMode.name) standard.errorMode s.errorMode
  presentationErrors : Json.Gives members "pe_allowed" (Json.Writes .bool)
    standard.presentationErrors s.presentationErrors

theorem Overrides.ofJson? {s : CheckerSettings} (h : s.Overrides members) :
    ofJson? (.record members) = some s := by
  have hfields : (Json.record members).fields? fieldNames = _ := Json.fields?_of_not_repeats h.distinct
  have hname := h.name.defaulted (by decide) h.distinct (Json.Writes.read Json.string?_text)
  have hprecision := h.precision.defaulted (by decide) h.distinct (Json.Writes.read Json.uint32?_nat)
  have herrorMode := h.errorMode.defaulted (by decide) h.distinct ErrorMode.ofJson?_of_isWord
  have hpresentationErrors := h.presentationErrors.defaulted (by decide) h.distinct
    (Json.Writes.read fun b => show Json.bool? (.bool b) = some b from rfl)
  rw [CheckerSettings.ofJson?, ← fieldNames]
  simp only [hfields, hname, hprecision, herrorMode, hpresentationErrors, Option.bind_eq_bind,
    Option.bind_some, Option.pure_def]

theorem ofJson?_of_rearranges (h : Json.Rearranges fieldNames members members') :
    ofJson? (.record members) = ofJson? (.record members') := by
  unfold ofJson?
  refine h.bind_fields? fun hvalues => ?_
  simp only [Json.Fields.defaulted, Json.Fields.get?, hvalues]

theorem ofJson?_of_repeats (h : Json.Repeats fieldNames members) : ofJson? (.record members) = none := by
  rw [ofJson?, ← fieldNames, Json.fields?_of_repeats h]
  rfl

end CheckerSettings

namespace GuessingSettings

def fieldNames : List String := ["round_limit", "guess_min", "guess_max"]

structure Overrides (s : GuessingSettings) (members : List (String × Json)) : Prop where
  distinct : ¬ Json.Repeats fieldNames members
  roundLimit : Json.Gives members "round_limit" (Json.Writes fun n : UInt32 => .nat n.toNat)
    standard.roundLimit s.roundLimit
  guessMin : Json.Gives members "guess_min" (Json.Writes fun n : Int64 => .int n.toInt)
    standard.guessMin s.guessMin
  guessMax : Json.Gives members "guess_max" (Json.Writes fun n : Int64 => .int n.toInt)
    standard.guessMax s.guessMax

theorem Overrides.ofJson? {s : GuessingSettings} (h : s.Overrides members) :
    ofJson? (.record members) = some s := by
  have hfields : (Json.record members).fields? fieldNames = _ := Json.fields?_of_not_repeats h.distinct
  have hroundLimit := h.roundLimit.defaulted (by decide) h.distinct (Json.Writes.read Json.uint32?_nat)
  have hguessMin := h.guessMin.defaulted (by decide) h.distinct (Json.Writes.read Json.int64?_int)
  have hguessMax := h.guessMax.defaulted (by decide) h.distinct (Json.Writes.read Json.int64?_int)
  rw [GuessingSettings.ofJson?, ← fieldNames]
  simp only [hfields, hroundLimit, hguessMin, hguessMax, Option.bind_eq_bind, Option.bind_some,
    Option.pure_def]

theorem ofJson?_of_rearranges (h : Json.Rearranges fieldNames members members') :
    ofJson? (.record members) = ofJson? (.record members') := by
  unfold ofJson?
  refine h.bind_fields? fun hvalues => ?_
  simp only [Json.Fields.defaulted, Json.Fields.get?, hvalues]

theorem ofJson?_of_repeats (h : Json.Repeats fieldNames members) : ofJson? (.record members) = none := by
  rw [ofJson?, ← fieldNames, Json.fields?_of_repeats h]
  rfl

end GuessingSettings

namespace RelaySettings

def fieldNames : List String := ["encode_command", "decode_command"]

structure Overrides (s : RelaySettings) (members : List (String × Json)) : Prop where
  distinct : ¬ Json.Repeats fieldNames members
  encodeCommand : Json.Gives members "encode_command" (Json.Writes .text)
    standard.encodeCommand s.encodeCommand
  decodeCommand : Json.Gives members "decode_command" (Json.Writes .text)
    standard.decodeCommand s.decodeCommand

theorem Overrides.ofJson? {s : RelaySettings} (h : s.Overrides members) :
    ofJson? (.record members) = some s := by
  have hfields : (Json.record members).fields? fieldNames = _ := Json.fields?_of_not_repeats h.distinct
  have hencode := h.encodeCommand.defaulted (by decide) h.distinct (Json.Writes.read Json.string?_text)
  have hdecode := h.decodeCommand.defaulted (by decide) h.distinct (Json.Writes.read Json.string?_text)
  rw [RelaySettings.ofJson?, ← fieldNames]
  simp only [hfields, hencode, hdecode, Option.bind_eq_bind, Option.bind_some, Option.pure_def]

theorem ofJson?_of_rearranges (h : Json.Rearranges fieldNames members members') :
    ofJson? (.record members) = ofJson? (.record members') := by
  unfold ofJson?
  refine h.bind_fields? fun hvalues => ?_
  simp only [Json.Fields.defaulted, Json.Fields.get?, hvalues]

theorem ofJson?_of_repeats (h : Json.Repeats fieldNames members) : ofJson? (.record members) = none := by
  rw [ofJson?, ← fieldNames, Json.fields?_of_repeats h]
  rfl

end RelaySettings

end Sections

/-! ## Configurations -/

namespace Settings

def fieldNames : List String := ["checker", "guessing", "relay", "convention"]

/-- The fields that hold records, with the fields of these. -/
def sections : List (String × List String) :=
  [("checker", CheckerSettings.fieldNames), ("guessing", GuessingSettings.fieldNames),
    ("relay", RelaySettings.fieldNames)]

structure Overrides (s : Settings) (members : List (String × Json)) : Prop where
  distinct : ¬ Json.Repeats fieldNames members
  checker : Json.Gives members "checker" (Json.IsRecord CheckerSettings.Overrides) .standard s.checker
  guessing : Json.Gives members "guessing" (Json.IsRecord GuessingSettings.Overrides) .standard s.guessing
  relay : Json.Gives members "relay" (Json.IsRecord RelaySettings.Overrides) .standard s.relay
  convention : Json.Gives members "convention" (Json.IsWord Convention.name) .plain s.convention

section Members

variable {members members' : List (String × Json)}

theorem Overrides.ofJson? {s : Settings} (h : s.Overrides members) :
    ofJson? (.record members) = some s := by
  have hfields : (Json.record members).fields? fieldNames = _ := Json.fields?_of_not_repeats h.distinct
  have hchecker := h.checker.defaulted (by decide) h.distinct
    (Json.IsRecord.read CheckerSettings.Overrides.ofJson?)
  have hguessing := h.guessing.defaulted (by decide) h.distinct
    (Json.IsRecord.read GuessingSettings.Overrides.ofJson?)
  have hrelay := h.relay.defaulted (by decide) h.distinct
    (Json.IsRecord.read RelaySettings.Overrides.ofJson?)
  have hconvention := h.convention.defaulted (by decide) h.distinct Convention.ofJson?_of_isWord
  rw [Settings.ofJson?, ← fieldNames]
  simp only [hfields, hchecker, hguessing, hrelay, hconvention, Option.bind_eq_bind, Option.bind_some,
    Option.pure_def]

/-! ## Order and unknown members -/

/-- One change to a configuration that settings do not see, at the top level or inside a section. -/
inductive Rearranges : List (String × Json) → List (String × Json) → Prop where
  | members {members members' : List (String × Json)} (h : Json.Rearranges fieldNames members members') :
      Rearranges members members'
  | inside {name : String} {names : List String} {inner inner' members : List (String × Json)}
      (hsection : (name, names) ∈ sections) (h : Json.Rearranges names inner inner') :
      Rearranges ((name, .record inner) :: members) ((name, .record inner') :: members)

theorem mem_fieldNames_of_mem_sections {name : String} {names : List String}
    (h : (name, names) ∈ sections) : name ∈ fieldNames := by
  have hall : ∀ section' ∈ sections, section'.1 ∈ fieldNames := by decide
  exact hall _ h

/-- No reader of a field sees the change. -/
theorem readers_congr {name : String} {names : List String} {inner inner' : List (String × Json)}
    (hsection : (name, names) ∈ sections) (h : Json.Rearranges names inner inner') :
    ("checker" = name →
        CheckerSettings.ofJson? (.record inner) = CheckerSettings.ofJson? (.record inner')) ∧
      ("guessing" = name →
        GuessingSettings.ofJson? (.record inner) = GuessingSettings.ofJson? (.record inner')) ∧
      ("relay" = name → RelaySettings.ofJson? (.record inner) = RelaySettings.ofJson? (.record inner')) ∧
      ("convention" = name →
        Convention.ofJson? (.record inner) = Convention.ofJson? (.record inner')) := by
  have hother : ∀ {field other : String} {p : Prop}, field ≠ other → field = other → p :=
    fun hne heq => absurd heq hne
  simp only [sections, List.mem_cons, Prod.mk.injEq, List.not_mem_nil, or_false] at hsection
  rcases hsection with ⟨rfl, rfl⟩ | ⟨rfl, rfl⟩ | ⟨rfl, rfl⟩
  · exact ⟨fun _ => CheckerSettings.ofJson?_of_rearranges h, hother (by decide), hother (by decide),
      hother (by decide)⟩
  · exact ⟨hother (by decide), fun _ => GuessingSettings.ofJson?_of_rearranges h, hother (by decide),
      hother (by decide)⟩
  · exact ⟨hother (by decide), hother (by decide), fun _ => RelaySettings.ofJson?_of_rearranges h,
      hother (by decide)⟩

theorem ofJson?_of_inside {name : String} {names : List String} {inner inner' : List (String × Json)}
    (hsection : (name, names) ∈ sections) (h : Json.Rearranges names inner inner')
    (members : List (String × Json)) :
    ofJson? (.record ((name, .record inner) :: members)) =
      ofJson? (.record ((name, .record inner') :: members)) := by
  have hname : name ∈ fieldNames := mem_fieldNames_of_mem_sections hsection
  obtain ⟨hchecker, hguessing, hrelay, hconvention⟩ := readers_congr hsection h
  unfold ofJson?
  refine Json.bind_fields?_congr (.of_eq ?_) fun _ => ?_
  · rw [Json.keys_known, Json.keys_known, List.map_cons, List.map_cons]
  · rw [← fieldNames, Json.known_cons hname, Json.known_cons hname]
    simp only [Json.defaulted_cons_congr hchecker, Json.defaulted_cons_congr hguessing,
      Json.defaulted_cons_congr hrelay, Json.defaulted_cons_congr hconvention]

theorem ofJson?_of_rearranges (h : Rearranges members members') :
    ofJson? (.record members) = ofJson? (.record members') := by
  cases h with
  | members h =>
    unfold ofJson?
    refine h.bind_fields? fun hvalues => ?_
    simp only [Json.Fields.defaulted, Json.Fields.get?, hvalues]
  | inside hsection h => exact ofJson?_of_inside hsection h _

theorem ofJson?_of_eqvGen (h : Relation.EqvGen Rearranges members members') :
    ofJson? (.record members) = ofJson? (.record members') := by
  induction h with
  | rel _ _ h => exact ofJson?_of_rearranges h
  | refl => rfl
  | symm _ _ _ ih => exact ih.symm
  | trans _ _ _ _ _ ih ih' => exact ih.trans ih'

/-! ## Repeated fields -/

/-- Some field is given twice, at the top level or inside a section. -/
inductive Repeats (members : List (String × Json)) : Prop where
  | members (h : Json.Repeats fieldNames members)
  | inside {name : String} {names : List String} {inner : List (String × Json)}
      (hsection : (name, names) ∈ sections) (hmem : (name, .record inner) ∈ members)
      (h : Json.Repeats names inner)

theorem ofJson?_of_repeats (h : Json.Repeats fieldNames members) : ofJson? (.record members) = none := by
  rw [ofJson?, ← fieldNames, Json.fields?_of_repeats h]
  rfl

theorem ofJson?_of_inside_repeats {name : String} {names : List String} {inner : List (String × Json)}
    (hdistinct : ¬ Json.Repeats fieldNames members) (hsection : (name, names) ∈ sections)
    (hmem : (name, .record inner) ∈ members) (h : Json.Repeats names inner) :
    ofJson? (.record members) = none := by
  have hfields : (Json.record members).fields? fieldNames = _ := Json.fields?_of_not_repeats hdistinct
  have hname : name ∈ fieldNames := mem_fieldNames_of_mem_sections hsection
  rw [ofJson?, ← fieldNames, hfields]
  simp only [sections, List.mem_cons, Prod.mk.injEq, List.not_mem_nil, or_false] at hsection
  rcases hsection with ⟨rfl, rfl⟩ | ⟨rfl, rfl⟩ | ⟨rfl, rfl⟩
  · have hchecker := CheckerSettings.ofJson?_of_repeats h
    simp only [Json.defaulted_eq_none hmem hname hdistinct hchecker, Option.bind_eq_bind,
      Option.bind_some, Option.bind_none]
  · have hguessing := GuessingSettings.ofJson?_of_repeats h
    simp only [Json.defaulted_eq_none hmem hname hdistinct hguessing, Option.bind_eq_bind,
      Option.bind_some, Option.bind_none, Option.bind_fun_none]
  · have hrelay := RelaySettings.ofJson?_of_repeats h
    simp only [Json.defaulted_eq_none hmem hname hdistinct hrelay, Option.bind_eq_bind,
      Option.bind_some, Option.bind_none, Option.bind_fun_none]

theorem Repeats.ofJson? (h : Repeats members) : ofJson? (.record members) = none := by
  by_cases hrepeats : Json.Repeats fieldNames members
  · exact ofJson?_of_repeats hrepeats
  · cases h with
    | members h => exact absurd h hrepeats
    | inside hsection hmem h => exact ofJson?_of_inside_repeats hrepeats hsection hmem h

/-! ## Texts -/

theorem read_of_spells {text : String} {v : Json} (h : Json.Spells text.toList v) :
    (Json.ofString? text).bind ofJson? = ofJson? v := by
  rw [Json.ofString?_of_spells h, Option.bind_some]

theorem Overrides.ofText {text : String} {s : Settings} (hs : s.Overrides members)
    (h : Json.Spells text.toList (.record members)) : ofText text = s.validate := by
  rw [Settings.ofText, read_of_spells h, hs.ofJson?]

end Members

/-- **A configuration is the defaults with what it gives in their place**, then validated, whatever its
order and whatever else it holds; one that gives a field twice is malformed. -/
theorem ofText_object {text : String} {members : List (String × Json)}
    (h : Json.Spells text.toList (.record members)) :
    (∀ s : Settings, s.Overrides members → ofText text = s.validate) ∧
      (∀ (text' : String) (members' : List (String × Json)),
        Json.Spells text'.toList (.record members') → Relation.EqvGen Rearranges members members' →
          ofText text' = ofText text) ∧
      (Repeats members → ofText text = .error .json) := by
  refine ⟨fun s hs => hs.ofText h, ?_, ?_⟩
  · intro text' members' h' hsame
    rw [ofText, ofText, read_of_spells h, read_of_spells h', ofJson?_of_eqvGen hsame]
  · intro hrepeats
    rw [ofText, read_of_spells h, hrepeats.ofJson?]

/-- One field, inside a section and between members that settings do not know. -/
def decodeOnly : List (String × Json) :=
  [("note", .array [.null]), ("relay", .record [("note", .bool true), ("decode_command", .text "D")])]

theorem overrides_decodeOnly :
    Overrides ⟨.standard, .standard, ⟨"ENCODE", "D"⟩, .plain⟩ decodeOnly where
  distinct := by decide
  checker := .absent (by simp [decodeOnly])
  guessing := .absent (by simp [decodeOnly])
  relay := .given (List.mem_cons_of_mem _ List.mem_cons_self) (.record
    { distinct := by decide
      encodeCommand := .absent (by simp)
      decodeCommand := .given (List.mem_cons_of_mem _ List.mem_cons_self) rfl })
  convention := .absent (by simp [decodeOnly])

theorem written_decodeOnly : ∀ m ∈ decodeOnly, m.2.Written := by
  have hnote : (Json.array [.null]).Written := .array (List.forall_mem_singleton.mpr .null)
  have hrelay : (Json.record [("note", .bool true), ("decode_command", .text "D")]).Written :=
    Json.written_record (List.forall_mem_cons.mpr ⟨.bool true, List.forall_mem_singleton.mpr (.string _)⟩)
  exact List.forall_mem_cons.mpr ⟨hnote, List.forall_mem_singleton.mpr hrelay⟩

/-- The same members in another order, and all of them twice. -/
theorem ofText_object_decodeOnly :
    Json.Spells (Json.record decodeOnly).compact.toList (.record decodeOnly) ∧
      ofText (Json.record decodeOnly).compact =
        .ok ⟨.standard, .standard, ⟨"ENCODE", "D"⟩, .plain⟩ ∧
      ofText (Json.record decodeOnly.reverse).compact = ofText (Json.record decodeOnly).compact ∧
      ofText (Json.record (decodeOnly ++ decodeOnly)).compact = .error .json := by
  have htext := (Json.written_record written_decodeOnly).spells_compact
  have hreversed := (Json.written_record fun m hm =>
    written_decodeOnly m (List.mem_reverse.mp hm)).spells_compact
  have htwice := (Json.written_record
    (List.forall_mem_append.mpr ⟨written_decodeOnly, written_decodeOnly⟩)).spells_compact
  refine ⟨htext, ?_, ?_, ?_⟩
  · rw [(ofText_object htext).1 _ overrides_decodeOnly]
    decide
  · have hsame : Relation.EqvGen Rearranges decodeOnly decodeOnly.reverse :=
      .rel _ _ (.members (.permute (List.reverse_perm decodeOnly).symm))
    exact (ofText_object htext).2.1 _ _ hreversed hsame
  · exact (ofText_object htwice).2.2 (.members (by decide))

end Settings

end Referee
