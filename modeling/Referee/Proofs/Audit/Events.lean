import Referee.Audit.Event
import Referee.Proofs.Audit.Instants
import Referee.Proofs.Json.Records

/-!
# Written events are read back

An event is read back from its JSON form (`Event.ofJson?_toJson`), so also from its line
(`Event.ofLine?_bytes`). No byte of the line is a control character (`Event.le_of_mem_bytes`).
-/

namespace Referee.Audit

/-! ## Session identifiers -/

namespace SessionId

theorem digit?_digitChar (d : Fin 16) : digit? (digitChar d) = some d := by
  revert d
  decide

theorem mapM_digit? (ds : List (Fin 16)) : (ds.map digitChar).mapM digit? = some ds := by
  induction ds with
  | nil => rfl
  | cons d ds ih =>
    rw [List.map_cons, List.mapM_cons, digit?_digitChar, ih]
    rfl

theorem ofDigits?_digits (id : SessionId) : ofDigits? (id.digits.map digitChar) = some id := by
  rw [ofDigits?, mapM_digit?]
  exact dif_pos id.length_digits

theorem ofGroups?_append {a b c d e : List Char} (ha : a.length = 8) (hb : b.length = 4)
    (hc : c.length = 4) (hd : d.length = 4) :
    ofGroups? (a ++ '-' :: b ++ '-' :: c ++ '-' :: d ++ '-' :: e) = ofDigits? (a ++ b ++ c ++ d ++ e) := by
  simp [ofGroups?, List.drop_append, ha, hb, hc, hd, List.drop_of_length_le]

theorem groups_append (cs : List Char) :
    cs.take 8 ++ (cs.drop 8).take 4 ++ (cs.drop 12).take 4 ++ (cs.drop 16).take 4 ++ cs.drop 20 = cs := by
  rw [← List.take_add, ← List.take_add, ← List.take_add, List.take_append_drop]

theorem ofChars?_chars (id : SessionId) : ofChars? id.chars = some id := by
  have hlength : (id.digits.map digitChar).length = 32 := by rw [List.length_map, id.length_digits]
  have hchars : id.chars.length = 36 := by simp [chars, id.length_digits]
  rw [ofChars?, if_neg (by omega), if_neg (by omega), if_neg (by omega), chars,
    ofGroups?_append (by simp [hlength]) (by simp [hlength]) (by simp [hlength]) (by simp [hlength]),
    groups_append, ofDigits?_digits]

theorem ofString?_text (id : SessionId) : ofString? id.text = some id := by
  rw [ofString?, text, String.toList_ofList, ofChars?_chars]

end SessionId

/-! ## Events -/

theorem Kind.ofJson?_toJson (k : Kind) : ofJson? k.toJson = some k := by cases k <;> rfl

theorem Severity.ofJson?_toJson (s : Severity) : ofJson? s.toJson = some s := by cases s <;> rfl

namespace Event

def fieldNames : List String :=
  ["session_id", "timestamp", "event_type", "severity", "details", "channel", "round", "verdict"]

/-- The members of the JSON form, in order. -/
def members (e : Event) : List (String × Json) :=
  [("session_id", .text e.session.text), ("timestamp", .text e.time.text),
    ("event_type", e.entry.kind.toJson), ("severity", e.entry.severity.toJson),
    ("details", .text e.entry.details)]
    ++ Json.member? "channel" .text e.entry.channel
    ++ Json.member? "round" (fun n : UInt32 => .nat n.toNat) e.entry.round
    ++ Json.member? "verdict" Verdict.toJson e.entry.verdict

theorem keys_members (e : Event) : (e.members.map (·.1)).Sublist fieldNames := by
  simp only [members, List.map_append]
  exact (((List.Sublist.refl _).append (Json.keys_member? _)).append (Json.keys_member? _)).append
    (Json.keys_member? _)

theorem lookup_members (e : Event) :
    e.members.lookup "channel" = e.entry.channel.map .text ∧
      e.members.lookup "round" = e.entry.round.map (fun n : UInt32 => .nat n.toNat) ∧
      e.members.lookup "verdict" = e.entry.verdict.map Verdict.toJson := by
  refine ⟨?_, ?_, ?_⟩
  all_goals
    simp [members, List.lookup_append, Json.lookup_member?_self, Json.lookup_member?_of_ne, List.lookup_cons]

/-- **An event is read back from its JSON form**, whichever of its optional fields it has. -/
theorem ofJson?_toJson (e : Event) : ofJson? e.toJson = some e := by
  have hfields : e.toJson.fields? fieldNames = some ⟨false, e.members⟩ :=
    Json.fields?_record (by decide) e.keys_members
  obtain ⟨hchannel, hround, hverdict⟩ := e.lookup_members
  have hchannel := Json.optional_of_lookup Json.string?_text Json.text_ne_null hchannel
  have hround := Json.optional_of_lookup Json.uint32?_nat nofun hround
  have hverdict := Json.optional_of_lookup Verdict.ofJson?_toJson nofun hverdict
  have hsession : e.members.lookup "session_id" = some (.text e.session.text) := rfl
  have htime : e.members.lookup "timestamp" = some (.text e.time.text) := rfl
  have hkind : e.members.lookup "event_type" = some e.entry.kind.toJson := rfl
  have hseverity : e.members.lookup "severity" = some e.entry.severity.toJson := rfl
  have hdetails : e.members.lookup "details" = some (.text e.entry.details) := rfl
  rw [ofJson?, ← fieldNames]
  simp only [hfields, Option.bind_eq_bind, Option.bind_some, Json.required_of_lookup hsession,
    Json.required_of_lookup htime, Json.required_of_lookup hkind, Json.required_of_lookup hseverity,
    Json.required_of_lookup hdetails, hchannel, hround, hverdict, Json.text, Json.string?,
    SessionId.ofString?_text, Instant.ofString?_text, Kind.ofJson?_toJson, Severity.ofJson?_toJson]
  rfl

theorem written_toJson (e : Event) : e.toJson.Written := by
  have htext : ∀ s : String, (Json.text s).Written := fun s => .string (some s)
  have hround : ∀ n : UInt32, (Json.nat n.toNat).Written := fun n => Json.written_nat n.toNat
  have hverdict : ∀ v : Verdict, v.toJson.Written := fun v => htext v.code
  refine Json.written_record ?_
  simp only [List.forall_mem_append, List.forall_mem_cons]
  exact ⟨⟨⟨⟨htext _, htext _, htext _, htext _, htext _, nofun⟩, Json.written_member? htext _⟩,
    Json.written_member? hround _⟩, Json.written_member? hverdict _⟩

/-! ## Lines -/

/-- The bytes of an event's line, without the line feed. -/
def bytes (e : Event) : Bytes := Bytes.ofString e.line

/-- The event that a line holds. -/
def ofLine? (l : Bytes) : Option Event := (l.toString?.bind Json.ofString?).bind ofJson?

theorem ofLine?_bytes (e : Event) : ofLine? e.bytes = some e := by
  have htext : e.bytes.toString? = some e.line := by
    rw [bytes, Bytes.ofString, Bytes.toString?, Utf8.decode?_ofChars, Option.map_some, String.ofList_toList]
  rw [ofLine?, htext, Option.bind_some, line, Json.ofString?_compact e.written_toJson, Option.bind_some,
    ofJson?_toJson]

/-- A line holds no control character, so nothing in an event breaks it. -/
theorem le_of_mem_bytes (e : Event) {b : UInt8} (hb : b ∈ e.bytes) : 0x20 ≤ b := by
  have hplain := e.written_toJson.plain
  rw [bytes, line, Json.compact, Bytes.ofString, String.toList_ofList] at hb
  exact hplain.le_of_mem_ofChars hb

end Event

end Referee.Audit
