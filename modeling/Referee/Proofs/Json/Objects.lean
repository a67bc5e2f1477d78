import Referee.Proofs.Json.Records

/-!
# What an object gives a record

A field has the value that stands under its name, or its default (`Gives`), and that is how it is read
wherever it stands among the members (`Gives.defaulted`). Another order of the members, or more members
that the record does not know, is another way to give the same record (`Rearranges.bind_fields?`).
-/

namespace Referee.Json

section Object

variable {α : Type} {names : List String} {members members' : List (String × Json)} {name : String}

/-! ## Members by name -/

theorem lookup_eq_some_iff_mem (h : (members.map (·.1)).Nodup) {v : Json} :
    members.lookup name = some v ↔ (name, v) ∈ members := by
  induction members with
  | nil => exact iff_of_false nofun List.not_mem_nil
  | cons m members ih =>
    obtain ⟨key, w⟩ := m
    obtain ⟨hkey, hrest⟩ := List.nodup_cons.mp h
    rw [List.mem_cons, Prod.mk.injEq]
    by_cases hname : name = key
    · subst hname
      have hnot : (name, v) ∉ members := fun hmem => hkey (List.mem_map_of_mem (f := (·.1)) hmem)
      rw [List.lookup_cons_self, Option.some.injEq, or_iff_left hnot, eq_comm]
      exact (and_iff_right rfl).symm
    · rw [List.lookup_cons, beq_false_of_ne hname, or_iff_right fun heq => hname heq.1]
      exact ih hrest

theorem known_cons {m : String × Json} (h : m.1 ∈ names) (members : List (String × Json)) :
    known names (m :: members) = m :: known names members :=
  List.filter_cons_of_pos (List.contains_iff_mem.mpr h)

theorem mem_known_iff {m : String × Json} : m ∈ known names members ↔ m ∈ members ∧ m.1 ∈ names := by
  rw [known, List.mem_filter, List.contains_iff_mem]

theorem lookup_known_eq_some_iff (h : ¬ Repeats names members) (hname : name ∈ names) {v : Json} :
    (known names members).lookup name = some v ↔ (name, v) ∈ members := by
  rw [lookup_eq_some_iff_mem (nodup_keys_known_iff.mpr h), mem_known_iff]
  exact and_iff_left hname

/-! ## Fields with a default -/

/-- What the members make of a field: what the value under its name means, or the default. -/
inductive Gives (members : List (String × Json)) (name : String) (Means : Json → α → Prop) (default : α) :
    α → Prop where
  | given {v : Json} {x : α} (hmem : (name, v) ∈ members) (hmeans : Means v x) :
      Gives members name Means default x
  | absent (h : ∀ v, (name, v) ∉ members) : Gives members name Means default default

def Writes (toJson : α → Json) (v : Json) (x : α) : Prop := v = toJson x

theorem Writes.read {toJson : α → Json} {read? : Json → Option α}
    (hread : ∀ x, read? (toJson x) = some x) {v : Json} {x : α} (h : Writes toJson v x) :
    read? v = some x := by
  rw [h]
  exact hread x

/-- An object whose members make up the value. -/
inductive IsRecord (Overrides : α → List (String × Json) → Prop) : Json → α → Prop where
  | record {members : List (String × Json)} {x : α} (h : Overrides x members) :
      IsRecord Overrides (.record members) x

theorem IsRecord.read {Overrides : α → List (String × Json) → Prop} {read? : Json → Option α}
    (hread : ∀ {x members}, Overrides x members → read? (.record members) = some x) {v : Json} {x : α}
    (h : IsRecord Overrides v x) : read? v = some x := by
  cases h with
  | record h => exact hread h

/-- A word is a string, or the only key of an object and null its value. -/
inductive IsWord (word : α → String) : Json → α → Prop where
  | text (x : α) : IsWord word (.text (word x)) x
  | key (x : α) : IsWord word (.record [(word x, .null)]) x

theorem IsWord.choice? {all : List α} {word : α → String} {v : Json} {x : α} (h : IsWord word v x)
    (hall : all.find? (word · == word x) = some x) : v.choice? all word = some x := by
  cases h <;> exact hall

theorem Gives.defaulted {Means : Json → α → Prop} {default x : α} {read? : Json → Option α}
    (h : Gives members name Means default x) (hname : name ∈ names) (hdistinct : ¬ Repeats names members)
    (hread : ∀ {v x}, Means v x → read? v = some x) :
    Fields.defaulted ⟨false, known names members⟩ name default read? = some x := by
  unfold Fields.defaulted Fields.get?
  cases h with
  | given hmem hmeans =>
    rw [(lookup_known_eq_some_iff hdistinct hname).mpr hmem]
    exact hread hmeans
  | absent h =>
    have hnone : (known names members).lookup name = none := by
      rw [Option.eq_none_iff_forall_ne_some]
      exact fun v hv => h v ((lookup_known_eq_some_iff hdistinct hname).mp hv)
    rw [hnone]

theorem defaulted_cons_congr {default : α} {read? : Json → Option α} {key : String} {v v' : Json}
    {values : List (String × Json)} (h : name = key → read? v = read? v') :
    Fields.defaulted ⟨false, (key, v) :: values⟩ name default read? =
      Fields.defaulted ⟨false, (key, v') :: values⟩ name default read? := by
  unfold Fields.defaulted Fields.get?
  by_cases hname : name = key
  · subst hname
    rw [List.lookup_cons_self, List.lookup_cons_self]
    exact h rfl
  · rw [List.lookup_cons, List.lookup_cons, beq_false_of_ne hname]

theorem defaulted_eq_none {default : α} {read? : Json → Option α} {v : Json} (hmem : (name, v) ∈ members)
    (hname : name ∈ names) (hdistinct : ¬ Repeats names members) (hread : read? v = none) :
    Fields.defaulted ⟨false, known names members⟩ name default read? = none := by
  unfold Fields.defaulted Fields.get?
  rw [(lookup_known_eq_some_iff hdistinct hname).mpr hmem]
  exact hread

/-! ## Order and unknown members -/

/-- One change that a record with these fields does not see. -/
inductive Rearranges (names : List String) : List (String × Json) → List (String × Json) → Prop where
  | permute {members members' : List (String × Json)} (h : members.Perm members') :
      Rearranges names members members'
  | unknown {m : String × Json} {members : List (String × Json)} (h : m.1 ∉ names) :
      Rearranges names (m :: members) members

theorem Rearranges.perm_known (h : Rearranges names members members') :
    (known names members).Perm (known names members') := by
  cases h with
  | permute h => exact h.filter _
  | unknown h =>
    rw [known, List.filter_cons_of_neg (by rwa [List.contains_iff_mem])]
    exact .refl _

theorem lookup_eq_of_perm (hperm : members.Perm members') (h : (members.map (·.1)).Nodup)
    (name : String) : members.lookup name = members'.lookup name := by
  have h' : (members'.map (·.1)).Nodup := (hperm.map _).nodup_iff.mp h
  ext v
  rw [lookup_eq_some_iff_mem h, lookup_eq_some_iff_mem h', hperm.mem_iff]

/-- Two objects that repeat no field or both repeat one give the same record if their known members are
read alike. -/
theorem bind_fields?_congr {read : Fields → Option α}
    (hkeys : ((known names members).map (·.1)).Perm ((known names members').map (·.1)))
    (hread : ¬ Repeats names members →
      read ⟨false, known names members⟩ = read ⟨false, known names members'⟩) :
    ((record members).fields? names >>= read) = ((record members').fields? names >>= read) := by
  have hrepeats : Repeats names members ↔ Repeats names members' := by
    rw [← not_iff_not, ← nodup_keys_known_iff, ← nodup_keys_known_iff, hkeys.nodup_iff]
  by_cases h : Repeats names members
  · rw [fields?_of_repeats h, fields?_of_repeats (hrepeats.mp h)]
  · rw [fields?_of_not_repeats h, fields?_of_not_repeats (mt hrepeats.mpr h)]
    exact hread h

/-- A record that is read field by field is the same after a rearrangement. -/
theorem Rearranges.bind_fields? {read : Fields → Option α} (h : Rearranges names members members')
    (hread : ∀ {values values' : List (String × Json)},
      (∀ name, values.lookup name = values'.lookup name) → read ⟨false, values⟩ = read ⟨false, values'⟩) :
    ((record members).fields? names >>= read) = ((record members').fields? names >>= read) :=
  bind_fields?_congr (h.perm_known.map _) fun hdistinct =>
    hread (lookup_eq_of_perm h.perm_known (nodup_keys_known_iff.mpr hdistinct))

end Object

end Referee.Json
