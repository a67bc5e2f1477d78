import Referee.Proofs.Json.Records
import Referee.Proofs.Utf8.IllFormed

/-!
# Written outcomes are read back

An outcome is read back with its verdict and its feedback. Its message travels as text, so it comes
back as the UTF-8 form of what is shown of it (`Outcome.ofJson?_toJson`): as it was if it is well-formed,
and else with U+FFFD for each ill-formed part. After that nothing changes any more.
-/

namespace Referee.Outcome

/-- What remains of an outcome that travels as JSON. -/
def asText (o : Outcome) : Outcome := { o with message := Bytes.ofString o.message.toStringLossy }

/-- The outcome that is read from the JSON text of an outcome. -/
def reread? (o : Outcome) : Option Outcome := (Json.ofString? o.toJson.compact).bind ofJson?

def fieldNames : List String := ["verdict", "feedback", "message"]

/-- The members of the JSON form, in order. -/
def members (o : Outcome) : List (String × Json) :=
  [("verdict", o.verdict.toJson)] ++ Json.member? "feedback" .text o.feedback
    ++ [("message", .text o.message.toStringLossy)]

theorem keys_members (o : Outcome) : (o.members.map (·.1)).Sublist fieldNames := by
  simp only [members, List.map_append]
  exact ((List.Sublist.refl _).append (Json.keys_member? _)).append (List.Sublist.refl _)

theorem lookup_members (o : Outcome) : o.members.lookup "feedback" = o.feedback.map .text ∧
    o.members.lookup "message" = some (.text o.message.toStringLossy) := by
  constructor <;>
    simp [members, List.lookup_append, Json.lookup_member?_self, Json.lookup_member?_of_ne, List.lookup_cons]

theorem ofJson?_toJson (o : Outcome) : ofJson? o.toJson = some o.asText := by
  have hfields : o.toJson.fields? fieldNames = some ⟨false, o.members⟩ :=
    Json.fields?_record (by decide) o.keys_members
  have hverdict : o.members.lookup "verdict" = some o.verdict.toJson := rfl
  obtain ⟨hfeedback, hmessage⟩ := o.lookup_members
  have hfeedback := Json.optional_of_lookup Json.string?_text Json.text_ne_null hfeedback
  rw [ofJson?, ← fieldNames]
  simp only [hfields, Option.bind_eq_bind, Option.bind_some, Json.required_of_lookup hverdict, hfeedback,
    Json.required_of_lookup hmessage, Verdict.ofJson?_toJson, Json.string?_text, Option.pure_def]
  rfl

theorem written_toJson (o : Outcome) : o.toJson.Written := by
  have htext : ∀ s : String, (Json.text s).Written := fun s => .string (some s)
  refine Json.written_record ?_
  simp only [List.forall_mem_append, List.forall_mem_cons]
  exact ⟨⟨⟨htext _, nofun⟩, Json.written_member? htext _⟩, htext _, nofun⟩

theorem reread?_eq (o : Outcome) : o.reread? = some o.asText := by
  rw [reread?, Json.ofString?_compact o.written_toJson, Option.bind_some, ofJson?_toJson]

/-! ## The message -/

theorem toStringLossy_ofString (s : String) : (Bytes.ofString s).toStringLossy = s := by
  have hdecode : Utf8.decodeLossy (Bytes.ofString s) = s.toList := by
    rw [Utf8.decodeLossy, Bytes.ofString, Utf8.decode_ofChars, List.map_map]
    exact List.map_id _
  rw [Bytes.toStringLossy, hdecode, String.ofList_toList]

theorem asText_asText (o : Outcome) : o.asText.asText = o.asText := by
  rw [asText, asText, toStringLossy_ofString]

/-- A message survives just if it is a text. -/
theorem asText_eq_self_iff {o : Outcome} : o.asText = o ↔ ∃ s, Bytes.ofString s = o.message := by
  constructor
  · intro h
    exact ⟨o.message.toStringLossy, congrArg Outcome.message h⟩
  · rintro ⟨s, hs⟩
    rw [asText, ← hs, toStringLossy_ofString, hs]

/-- **An outcome survives being written and read, but for the ill-formed parts of its message.** The
message comes back as the UTF-8 form of the text that it is shown as, with U+FFFD for each maximal
ill-formed part, and there is one such text. So the outcome is the same just if its message is a text,
it is shown as before, and reading it a second time changes nothing. -/
theorem reread?_shown (o : Outcome) : ∃ cs, (∀ ds, Utf8.ShownAs o.message ds ↔ ds = cs) ∧
    o.message.toStringLossy = String.ofList cs ∧
    let o' : Outcome := ⟨o.verdict, o.feedback, Bytes.ofChars cs⟩
    o.reread? = some o' ∧ (o' = o ↔ ∃ s, Bytes.ofString s = o.message) ∧
      o'.reread? = some o' ∧ o'.message.toStringLossy = o.message.toStringLossy := by
  have hshown : o.message.toStringLossy = String.ofList (Utf8.decodeLossy o.message) := by
    rw [Bytes.toStringLossy]
  have hsame : (⟨o.verdict, o.feedback, Bytes.ofChars (Utf8.decodeLossy o.message)⟩ : Outcome) =
      o.asText := by
    rw [asText, hshown, Bytes.ofString, String.toList_ofList]
  refine ⟨Utf8.decodeLossy o.message, fun ds => ?_, hshown, ?_⟩
  · exact Utf8.shownAs_iff
  · rw [hsame]
    refine ⟨o.reread?_eq, asText_eq_self_iff, ?_, ?_⟩
    · rw [reread?_eq, asText_asText]
    · exact toStringLossy_ofString _

end Referee.Outcome
