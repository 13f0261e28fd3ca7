import DocPipeline.Store

namespace DocPipeline

namespace Record

variable (record : Record)

theorem fields_blankSource : record.blankSource.fields = record.fields := by
  rw [blankSource]
  split <;> rfl

theorem isFileLike_blankSource : record.blankSource.isFileLike = record.isFileLike := by
  rw [blankSource]
  split <;> rfl

theorem isUndocumented_blankSource :
    record.blankSource.isUndocumented = record.isUndocumented := by
  rw [isUndocumented, isUndocumented, fields_blankSource]

theorem recordKeys_blankSource :
    Database.recordKeys record.blankSource = Database.recordKeys record := by
  have hfield : record.blankSource.textField? = record.textField? := by
    funext key
    rw [textField?, textField?, fields_blankSource]
  rw [Database.recordKeys, Database.recordKeys, hfield]

-- The text that a record of a file has is blanked, and nothing else is touched.
theorem blankSource_eq : record.blankSource =
    if record.kind = .file ∨ record.kind = .testFile then
      { record with content := record.content.map fun _ => "" }
    else record := by
  have hfile : record.isFileLike = true ↔ record.kind = .file ∨ record.kind = .testFile :=
    DocKind.isFileLike_iff
  rw [blankSource, carriesSource]
  by_cases hf : record.isFileLike = true
  · rw [if_pos (hfile.mp hf), hf, Bool.true_and]
    cases hcontent : record.content with
    | none => exact congrArg (fun content => { record with content }) hcontent
    | some text => rfl
  · rw [if_neg ((not_congr hfile).mp hf), if_neg (by simp [hf])]

-- An entity keeps its text, also one that is spelled as a file.
example : ({ kind := .entity "file", content := some "let a;" } : Record).blankSource.content =
    some "let a;" := rfl

theorem blankSource_blankSource : record.blankSource.blankSource = record.blankSource := by
  by_cases h : record.carriesSource = true
  · have hblank : record.blankSource = { record with content := some "" } := if_pos h
    rw [hblank, blankSource]
    split <;> rfl
  · have hsame : record.blankSource = record := if_neg h
    rw [hsame, hsame]

theorem map_blankSource_blankSource (records : List Record) :
    (records.map blankSource).map blankSource = records.map blankSource := by
  rw [List.map_map]
  exact List.map_congr_left fun record _ => record.blankSource_blankSource

end Record

namespace Database

variable {db shadow : Database}

def blanked (db : Database) : Database := { db with records := db.records.map Record.blankSource }

theorem indexFrom_map_blankSource (index : Dict (List Nat)) (position : Nat)
    (records : List Record) : indexFrom index position (records.map Record.blankSource) =
      indexFrom index position records := by
  induction records generalizing index position with
  | nil => rfl
  | cons record records ih =>
    rw [List.map_cons, indexFrom, indexFrom, Record.recordKeys_blankSource, ih]

theorem reindex_blanked (db : Database) : db.blanked.reindex = db.reindex.blanked := by
  simp only [reindex, blanked, indexFrom_map_blankSource]

theorem coverage_blanked (db : Database) : db.blanked.coverage = db.coverage := by
  have hentity : ((fun record : Record => !record.isFileLike) ∘ Record.blankSource) =
      fun record => !record.isFileLike := by
    funext record
    rw [Function.comp_apply, Record.isFileLike_blankSource]
  have hdocumented : ((fun record : Record => !record.isUndocumented) ∘ Record.blankSource) =
      fun record => !record.isUndocumented := by
    funext record
    rw [Function.comp_apply, Record.isUndocumented_blankSource]
  simp only [coverage, blanked, List.filter_map, List.length_map, hentity, hdocumented]

-- No file in it carries any text.
theorem content_of_mem_blanked {record : Record} (h : record ∈ db.blanked.records)
    (hf : record.kind = .file ∨ record.kind = .testFile) :
    record.content = none ∨ record.content = some "" := by
  obtain ⟨shown, -, rfl⟩ := List.mem_map.mp h
  rw [Record.blankSource_eq] at hf ⊢
  split
  · cases shown.content
    · exact .inl rfl
    · exact .inr rfl
  next hother =>
    rw [if_neg hother] at hf
    exact absurd hf hother

end Database

theorem Change.between_blanked (before after : Database) :
    between before.blanked after.blanked = between before after := by
  rw [between, between, Database.blanked, Database.blanked, List.length_map, List.length_map]

end DocPipeline
