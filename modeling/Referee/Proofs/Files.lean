import Referee.Files

/-!
# What file operations change

Making directories and opening a file for writing change no content (`contentAt_makeParents`,
`contentAt_openOrCreate`). A file can be written where the path admits one (`Admits.exists_write`); that
file is given its content, and every other stays as it is (`replaces_of_write`).
-/

namespace Referee

namespace Files

variable {fs fs' : Files} {p : Path}

/-- What is no directory is not one of those that are always there. -/
theorem isBase_eq_false (h : fs.find? p ≠ some .directory) : p.isBase = false := by
  cases hbase : p.isBase with
  | false => rfl
  | true => exact absurd (if_pos hbase) h

theorem contentAt_put_self (fs : Files) (hp : p.isBase = false) (content : Bytes) :
    (fs.put p (.file content)).contentAt p = content := by
  rw [contentAt, find?_put_self fs hp]

theorem contentAt_put_of_ne (fs : Files) {q : Path} (h : q ≠ p) (n : Node) :
    (fs.put p n).contentAt q = fs.contentAt q := by
  rw [contentAt, find?_put_of_ne fs h, contentAt]

theorem contentAt_append_self (fs : Files) (hp : p.isBase = false) (bs : Bytes) :
    (fs.append p bs).contentAt p = fs.contentAt p ++ bs :=
  contentAt_put_self fs hp _

/-- What is put where nothing was has no content yet, so no content changes. -/
theorem contentAt_put_of_none {n : Node} (hnone : fs.find? p = none) (hn : n = .directory ∨ n = .file [])
    (q : Path) : (fs.put p n).contentAt q = fs.contentAt q := by
  by_cases hq : q = p
  · have hp : p.isBase = false := isBase_eq_false (by rw [hnone]; nofun)
    rw [hq, contentAt, contentAt, find?_put_self fs hp, hnone]
    rcases hn with rfl | rfl <;> rfl
  · exact contentAt_put_of_ne fs hq n

theorem contentAt_makeDirectories {here : Path} {names : List String}
    (h : fs.makeDirectories here names = .ok fs') (q : Path) : fs'.contentAt q = fs.contentAt q := by
  induction names generalizing fs here with
  | nil =>
    cases h
    rfl
  | cons name names ih =>
    simp only [makeDirectories] at h
    split at h
    · exact ih h
    · cases h
    · rename_i hnone
      split at h
      · cases h
      · rw [ih h, contentAt_put_of_none hnone (.inl rfl)]

theorem contentAt_makeParents {path : String} (h : fs.makeParents path = .ok fs') (q : Path) :
    fs'.contentAt q = fs.contentAt q := by
  simp only [makeParents] at h
  split at h
  · cases h
  · exact contentAt_makeDirectories h q

/-! ## Files for writing -/

/-- A file of that path is there or can be created. -/
structure Admits (fs : Files) (path : String) (p : Path) : Prop where
  located : fs.locate path = .ok p
  not_directory : fs.find? p ≠ some .directory
  no_slash : endsInSlash path = false

theorem Admits.exists_openOrCreate {path : String} (h : fs.Admits path p) :
    ∃ fs', fs.openOrCreate path = .ok (p, fs') := by
  cases hfind : fs.find? p with
  | none =>
    refine ⟨fs.put p (.file []), ?_⟩
    simp only [openOrCreate, h.located, hfind, h.no_slash, Bool.false_eq_true, if_false]
  | some n =>
    cases n with
    | file content =>
      refine ⟨fs, ?_⟩
      simp only [openOrCreate, h.located, hfind, h.no_slash, Bool.false_eq_true, if_false]
    | directory => exact absurd hfind h.not_directory

theorem openOrCreate_cases {path : String} (h : fs.openOrCreate path = .ok (p, fs')) :
    fs.Admits path p ∧ (fs' = fs ∨ fs.find? p = none ∧ fs' = fs.put p (.file [])) := by
  unfold openOrCreate at h
  split at h
  · cases h
  rename_i hlocate
  split at h
  · cases h
  · rename_i hfind
    split at h <;> cases h
    rename_i hslash
    exact ⟨⟨hlocate, by rw [hfind]; nofun, by simpa using hslash⟩, .inl rfl⟩
  · rename_i hfind
    split at h <;> cases h
    rename_i hslash
    exact ⟨⟨hlocate, by rw [hfind]; nofun, by simpa using hslash⟩, .inr ⟨hfind, rfl⟩⟩

theorem contentAt_openOrCreate {path : String} (h : fs.openOrCreate path = .ok (p, fs')) (q : Path) :
    fs'.contentAt q = fs.contentAt q := by
  obtain ⟨-, rfl | ⟨hnone, rfl⟩⟩ := openOrCreate_cases h
  · rfl
  · exact contentAt_put_of_none hnone (.inr rfl) q

/-- The directories that are always there cannot be opened for writing. -/
theorem isBase_of_openOrCreate {path : String} (h : fs.openOrCreate path = .ok (p, fs')) :
    p.isBase = false :=
  isBase_eq_false (openOrCreate_cases h).1.not_directory

/-- One file, and no other, has been given a content. -/
structure Replaces (fs fs' : Files) (p : Path) (content : Bytes) : Prop where
  written : fs'.find? p = some (.file content)
  others : ∀ q, q ≠ p → fs'.find? q = fs.find? q

theorem replaces_of_write {path : String} {content : Bytes} (h : fs.write path content = .ok fs') :
    ∃ p, fs.Admits path p ∧ fs.Replaces fs' p content := by
  unfold write at h
  split at h
  · cases h
  rename_i p fs₁ hopen
  cases h
  obtain ⟨hadmits, hfs₁⟩ := openOrCreate_cases hopen
  refine ⟨p, hadmits, find?_put_self fs₁ (isBase_eq_false hadmits.not_directory) _, fun q hq => ?_⟩
  rw [find?_put_of_ne fs₁ hq]
  obtain rfl | ⟨-, rfl⟩ := hfs₁
  · rfl
  · exact find?_put_of_ne fs hq _

theorem Admits.exists_write {path : String} (h : fs.Admits path p) (content : Bytes) :
    ∃ fs', fs.write path content = .ok fs' := by
  obtain ⟨fs₁, hopen⟩ := h.exists_openOrCreate
  rw [write, hopen]
  exact ⟨_, rfl⟩

end Files

end Referee
