import Referee.Guessing.Form
import Referee.Proofs.Settings.Overrides
import Referee.Proofs.Validation

/-!
# Written settings and reports are read back

Settings give every field when they are written, so their text denotes them (`Settings.overrides_toJson`)
and reading it only validates them. The report of a session is read back from its text as it is. Both
hold whatever the texts in them are and at the limits of the integers.
-/

namespace Referee

/-! ## Settings -/

namespace CheckerSettings

def members (s : CheckerSettings) : List (String × Json) :=
  [("name", .text s.name), ("precision", .nat s.precision.toNat),
    ("error_mode", s.errorMode.toJson), ("pe_allowed", .bool s.presentationErrors)]

theorem overrides_members (s : CheckerSettings) : s.Overrides s.members where
  distinct := Json.not_repeats_of_nodup (show fieldNames.Nodup by decide)
  name := .given (v := .text s.name) (by simp [members]) rfl
  precision := .given (v := .nat s.precision.toNat) (by simp [members]) rfl
  errorMode := .given (v := s.errorMode.toJson) (by simp [members]) (.text s.errorMode)
  presentationErrors := .given (v := .bool s.presentationErrors) (by simp [members]) rfl

theorem written_toJson (s : CheckerSettings) : s.toJson.Written := by
  refine Json.written_record ?_
  simp only [List.forall_mem_cons]
  exact ⟨.string _, Json.written_nat _, .string _, .bool _, nofun⟩

end CheckerSettings

namespace GuessingSettings

def members (s : GuessingSettings) : List (String × Json) :=
  [("round_limit", .nat s.roundLimit.toNat), ("guess_min", .int s.guessMin.toInt),
    ("guess_max", .int s.guessMax.toInt)]

theorem overrides_members (s : GuessingSettings) : s.Overrides s.members where
  distinct := Json.not_repeats_of_nodup (show fieldNames.Nodup by decide)
  roundLimit := .given (v := .nat s.roundLimit.toNat) (by simp [members]) rfl
  guessMin := .given (v := .int s.guessMin.toInt) (by simp [members]) rfl
  guessMax := .given (v := .int s.guessMax.toInt) (by simp [members]) rfl

theorem written_toJson (s : GuessingSettings) : s.toJson.Written := by
  refine Json.written_record ?_
  simp only [List.forall_mem_cons]
  exact ⟨Json.written_nat _, Json.written_int _, Json.written_int _, nofun⟩

end GuessingSettings

namespace RelaySettings

def members (s : RelaySettings) : List (String × Json) :=
  [("encode_command", .text s.encodeCommand), ("decode_command", .text s.decodeCommand)]

theorem overrides_members (s : RelaySettings) : s.Overrides s.members where
  distinct := Json.not_repeats_of_nodup (show fieldNames.Nodup by decide)
  encodeCommand := .given (v := .text s.encodeCommand) (by simp [members]) rfl
  decodeCommand := .given (v := .text s.decodeCommand) (by simp [members]) rfl

theorem written_toJson (s : RelaySettings) : s.toJson.Written := by
  refine Json.written_record ?_
  simp only [List.forall_mem_cons]
  exact ⟨.string _, .string _, nofun⟩

end RelaySettings

namespace Settings

def members (s : Settings) : List (String × Json) :=
  [("checker", s.checker.toJson), ("guessing", s.guessing.toJson),
    ("relay", s.relay.toJson), ("convention", s.convention.toJson)]

theorem overrides_members (s : Settings) : s.Overrides s.members where
  distinct := Json.not_repeats_of_nodup (show fieldNames.Nodup by decide)
  checker := .given (v := s.checker.toJson) (by simp [members]) (.record s.checker.overrides_members)
  guessing := .given (v := s.guessing.toJson) (by simp [members]) (.record s.guessing.overrides_members)
  relay := .given (v := s.relay.toJson) (by simp [members]) (.record s.relay.overrides_members)
  convention := .given (v := s.convention.toJson) (by simp [members]) (.text s.convention)

theorem written_toJson (s : Settings) : s.toJson.Written := by
  refine Json.written_record ?_
  simp only [List.forall_mem_cons]
  exact ⟨s.checker.written_toJson, s.guessing.written_toJson, s.relay.written_toJson, .string _, nofun⟩

/-- Written settings are read as they are and only validated. -/
theorem ofText_compact (s : Settings) : ofText s.toJson.compact = s.validate :=
  s.overrides_members.ofText s.written_toJson.spells_compact

end Settings

/-! ## Reports of sessions -/

namespace Guessing.Ending

def members (e : Ending) : List (String × Json) :=
  [("verdict", e.verdict.toJson), ("rounds", .nat e.rounds.toNat), ("message", .text e.message)]

def fieldNames : List String := ["verdict", "rounds", "message"]

theorem ofJson?_toJson (e : Ending) : ofJson? e.toJson = some e := by
  have hfields : e.toJson.fields? fieldNames = some ⟨false, e.members⟩ :=
    Json.fields?_record (by decide) (List.Sublist.refl fieldNames)
  have hverdict : e.members.lookup "verdict" = some e.verdict.toJson := rfl
  have hrounds : e.members.lookup "rounds" = some (.nat e.rounds.toNat) := rfl
  have hmessage : e.members.lookup "message" = some (.text e.message) := rfl
  rw [ofJson?, ← fieldNames]
  simp only [hfields, Option.bind_eq_bind, Option.bind_some, Json.required_of_lookup hverdict,
    Json.required_of_lookup hrounds, Json.required_of_lookup hmessage, Verdict.ofJson?_toJson,
    Json.uint32?_nat, Json.string?_text, Option.pure_def]

theorem written_toJson (e : Ending) : e.toJson.Written := by
  refine Json.written_record ?_
  simp only [List.forall_mem_cons]
  exact ⟨.string _, Json.written_nat _, .string _, nofun⟩

end Guessing.Ending

/-! ## Both -/

/-- **Settings and reports survive being written and read.** Settings come back if they are sound;
otherwise reading names the problem that validation finds, and never calls the text malformed. -/
theorem written_forms_read_back (s : Settings) (e : Guessing.Ending) :
    (Settings.ofText s.toJson.compact = .ok s ↔ s.validate = .ok s) ∧
      (∀ f, s.validate = .error f →
        ∃ message, f = .config message ∧ Settings.ofText s.toJson.compact = .error (.config message)) ∧
      Settings.ofText s.toJson.compact ≠ .error .json ∧
      (Json.ofString? e.toJson.compact).bind Guessing.Ending.ofJson? = some e := by
  have herror : ∀ f, s.validate = .error f → ∃ message, f = .config message := by
    intro f hf
    obtain ⟨p, -, hp⟩ := Settings.validate_eq_error_iff.mp hf
    exact ⟨p.message, hp.symm⟩
  rw [Settings.ofText_compact]
  refine ⟨Iff.rfl, ?_, ?_, ?_⟩
  · intro f hf
    obtain ⟨message, rfl⟩ := herror f hf
    exact ⟨message, rfl, hf⟩
  · intro hjson
    obtain ⟨message, hmessage⟩ := herror .json hjson
    cases hmessage
  · rw [Json.ofString?_compact e.written_toJson, Option.bind_some, e.ofJson?_toJson]

end Referee
