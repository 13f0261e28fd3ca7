import Mathlib
import DocPipeline.Publish.Json
import DocPipeline.Proofs.Database.Sorted
import DocPipeline.Proofs.Json.Reading

namespace DocPipeline

namespace Record

variable {record : Record} {text : String}

-- Reads the text of a record, its fields in the order in which they stand.
def ofText? (text : String) : Option Record := (Json.read? text.toList).bind ofJson?

-- Reads it by way of a value, which keeps no order.
def ofValue? (text : String) : Option Record := (Json.parse? text).bind ofJson?

theorem Sound.ofText?_of_written (h : record.Sound) {text : List Char}
    (hw : Json.Written record.toJson text) (hd : record.toJson.depth ≤ Json.maxDepth)
    (hi : record.toJson.Integral) :
    ofText? (String.ofList text) = some record.reread ∧
      ofValue? (String.ofList text) = some record.reread.sorted := by
  have hread := Json.read?_written hw hd hi
  rw [ofText?, ofValue?, Json.parse?, String.toList_ofList, hread]
  exact ⟨h.ofJson?_toJson, h.ofJson?_canonical⟩

theorem sound_of_ofText? (h : ofText? text = some record) :
    record.Sound ∧ record.reread = record ∧ record.toJson.depth ≤ Json.maxDepth := by
  obtain ⟨value, hread, hrecord⟩ := Option.bind_eq_some_iff.mp h
  exact ⟨sound_of_ofJson? hrecord, reread_of_ofJson? hrecord,
    (depth_toJson_le hrecord).trans (Json.depth_of_read? hread)⟩

theorem sound_of_ofValue? (h : ofValue? text = some record) : record.Sound ∧
    record.reread = record ∧ record.sorted = record ∧ record.toJson.depth ≤ Json.maxDepth := by
  obtain ⟨value, hparse, hrecord⟩ := Option.bind_eq_some_iff.mp h
  obtain ⟨shown, hread, rfl⟩ := Option.map_eq_some_iff.mp hparse
  exact ⟨sound_of_ofJson? hrecord, reread_of_ofJson? hrecord, sorted_of_ofJson?_canonical hrecord,
    (depth_toJson_le hrecord).trans
      ((Json.depth_canonical_le shown).trans (Json.depth_of_read? hread))⟩

end Record

namespace JsonPublisher

variable {plan : Plan} {package : Package} {links : List MenuLink} {db : Database}

theorem depth_ofString? (text : Option String) : (Json.ofString? text).depth = 0 := by
  cases text <;> rfl

theorem integral_ofString? (text : Option String) : (Json.ofString? text).Integral := by
  cases text <;> trivial

theorem depth_links_le (links : List MenuLink) :
    Json.depthItems (links.map MenuLink.toJson) ≤ 1 := by
  rw [Json.depthItems_le_iff, List.forall_mem_map]
  exact fun _ _ => le_rfl

theorem integral_links (links : List MenuLink) :
    Json.IntegralItems (links.map MenuLink.toJson) := by
  rw [Json.integralItems_iff, List.forall_mem_map]
  exact fun _ _ => ⟨trivial, trivial, trivial⟩

-- Around the database there are only texts, and one level more.
theorem depth_document_le (h : db.toJson.depth < Json.maxDepth) :
    (document plan package links db).depth ≤ Json.maxDepth := by
  have hlinks := depth_links_le links
  have hmax : Json.maxDepth = 127 := rfl
  simp only [document, PackageSummary.toJson, Json.depth, Json.depthEntries, depth_ofString?]
  omega

theorem integral_document (h : db.toJson.Integral) :
    (document plan package links db).Integral := by
  simp only [document, PackageSummary.toJson, Json.Integral, Json.IntegralEntries,
    integral_ofString?, integral_links, h, and_self]

theorem written_render (publisher : JsonPublisher) (value : Json) :
    Json.Written value (publisher.render value).toList := by
  unfold render
  split
  · rw [Json.toPrettyText, String.toList_ofList]
    exact Json.written_pretty 0 value
  · rw [Json.toText, String.toList_ofList]
    exact Json.written_compact value

theorem read?_render (publisher : JsonPublisher) (plan : Plan) (package : Package)
    (links : List MenuLink) (hi : db.toJson.Integral) (hd : db.toJson.depth < Json.maxDepth) :
    Json.read? (publisher.render (document plan package links db)).toList =
      some (document plan package links db) :=
  Json.read?_written (written_render publisher _) (depth_document_le hd) (integral_document hi)

theorem exists_docs (plan : Plan) (package : Package) (links : List MenuLink) (db : Database) :
    ∃ entries, document plan package links db = .object entries ∧
      (entries.map Prod.fst).Nodup ∧ Json.lookup "docs" entries = some db.toJson := by
  have hkeys : ["title", "package", "menuLinks", "docs"].Nodup := by decide
  exact ⟨_, rfl, hkeys, rfl⟩

-- Two ways lead from the text to the database. `Json.read?` keeps entries in the order in which
-- they stand; `Json.parse?` gives a value of the program, whose objects are sorted.
theorem docs_of_render (publisher : JsonPublisher) (plan : Plan) (package : Package)
    (links : List MenuLink) (hsound : db.Sound) (hi : db.toJson.Integral)
    (hd : db.toJson.depth < Json.maxDepth) :
    let text := publisher.render (document plan package links db)
    (∃ entries docs, Json.read? text.toList = some (.object entries) ∧
      Json.lookup "docs" entries = some docs ∧ Database.ofJson? docs = some db.reread) ∧
    ∃ entries docs, Json.parse? text = some (.object entries) ∧
      Json.lookup "docs" entries = some docs ∧
      Database.ofJson? docs = some db.reread.sorted := by
  obtain ⟨entries, hdocument, hkeys, hdocs⟩ := exists_docs plan package links db
  have hread := read?_render publisher plan package links hi hd
  have hparse : Json.parse? (publisher.render (document plan package links db)) =
      some (document plan package links db).canonical := by
    rw [Json.parse?, hread, Option.map_some]
  rw [hdocument] at hread hparse ⊢
  have hsorted := Json.lookup_canonical hkeys "docs"
  rw [hdocs] at hsorted
  exact ⟨⟨entries, db.toJson, hread, hdocs, hsound.ofJson?_toJson⟩,
    ⟨_, _, hparse, hsorted, hsound.ofJson?_canonical⟩⟩

-- Whatever the options, the published text is read as an object whose `docs` are the database that
-- was published: with `Json.read?` as it is, and with `Json.parse?` but for the order of the fields
-- of a record, and of the keys of the index, which are sorted. Only an entity that is spelled as a
-- file, or as a test file, is read as one. A record that was read from a text, either way, may
-- stand in such a database, and is read again, the same way, from both of its own texts.
theorem database_of_published :
    (∀ (publisher : JsonPublisher) (plan : Plan) (package : Package) (links : List MenuLink)
      (db : Database), db.Sound → db.toJson.Integral → db.toJson.depth < Json.maxDepth →
      let text := publisher.render (document plan package links db)
      ((∃ entries docs, Json.read? text.toList = some (.object entries) ∧
          Json.lookup "docs" entries = some docs ∧ Database.ofJson? docs = some db.reread) ∧
        ∃ entries docs, Json.parse? text = some (.object entries) ∧
          Json.lookup "docs" entries = some docs ∧
          Database.ofJson? docs = some db.reread.sorted) ∧
      (db.reread = db ↔ ∀ record ∈ db.records,
        record.kind ≠ .entity "file" ∧ record.kind ≠ .entity "testFile")) ∧
    ∀ (text : String) (record : Record),
      (Record.ofText? text = some record → record.Sound ∧ record.reread = record ∧
        (record.toJson.Integral →
          Record.ofText? record.toJson.toText = some record ∧
          Record.ofText? record.toJson.toPrettyText = some record)) ∧
      (Record.ofValue? text = some record → record.Sound ∧ record.reread = record ∧
        (record.toJson.Integral →
          Record.ofValue? record.toJson.toText = some record ∧
          Record.ofValue? record.toJson.toPrettyText = some record)) := by
  refine ⟨fun publisher plan package links db hsound hi hd =>
    ⟨docs_of_render publisher plan package links hsound hi hd, db.reread_eq_self_iff⟩,
    fun text record => ⟨fun htext => ?_, fun htext => ?_⟩⟩
  · obtain ⟨hsound, hkind, hd⟩ := Record.sound_of_ofText? htext
    refine ⟨hsound, hkind, fun hi => ?_⟩
    have hcompact := hsound.ofText?_of_written (Json.written_compact _) hd hi
    have hpretty := hsound.ofText?_of_written (Json.written_pretty 0 _) hd hi
    rw [hkind] at hcompact hpretty
    exact ⟨hcompact.1, hpretty.1⟩
  · obtain ⟨hsound, hkind, hsorted, hd⟩ := Record.sound_of_ofValue? htext
    refine ⟨hsound, hkind, fun hi => ?_⟩
    have hcompact := hsound.ofText?_of_written (Json.written_compact _) hd hi
    have hpretty := hsound.ofText?_of_written (Json.written_pretty 0 _) hd hi
    rw [hkind, hsorted] at hcompact hpretty
    exact ⟨hcompact.2, hpretty.2⟩

-- A record with a text that needs every kind of escape, next to one with nested fields.
def quoting : Database :=
  { records := [
      { kind := .file, content := some "\"λ\"\\\t\u0001\u2028" },
      { kind := .entity "class", isVirtual := true, fields := ⟨[("name", .string "A"),
        ("line", .number (.integer (-3))),
        ("params", .array [.object [("name", .string "x"), ("types", .array [.null])]])]⟩ }]
    asts := [⟨"src/a.js", .object [("body", .array []), ("type", .string "Program")]⟩]
    index := ⟨[("A", [1])]⟩
    generation := 2 }

def spacedText : String := "\x7b \"b\": 1, \"kind\": \"class\", \"a\": [true], \"b\": 2 \x7d"

def spaced : Record :=
  { kind := .entity "class", fields := ⟨[("b", .number (.integer 2)), ("a", .array [.bool true])]⟩ }

theorem quoting_published : quoting.Sound ∧ quoting.toJson.Integral ∧
    quoting.toJson.depth < Json.maxDepth ∧
    (∃ entries docs,
      Json.read? (render { pretty := false } (document default {} [] quoting)).toList =
        some (.object entries) ∧
      Json.lookup "docs" entries = some docs ∧ Database.ofJson? docs = some quoting) ∧
    Record.ofText? spacedText = some spaced ∧
    Record.ofText? spaced.toJson.toText = some spaced := by
  obtain ⟨hdatabase, htext⟩ := database_of_published
  have hsound : quoting.Sound := by
    refine ⟨List.forall_mem_cons.mpr ⟨?_, List.forall_mem_singleton.mpr ?_⟩,
      List.forall_mem_singleton.mpr (Json.isCanonical_iff.mpr rfl), by decide⟩
    · exact ⟨List.nodup_nil, fun _ h => (List.not_mem_nil h).elim,
        fun _ h => (List.not_mem_nil h).elim⟩
    · refine ⟨by decide, by decide, ?_⟩
      simp only [List.forall_mem_cons]
      exact ⟨Json.isCanonical_iff.mpr rfl, Json.isCanonical_iff.mpr rfl,
        Json.isCanonical_iff.mpr rfl, fun _ h => (List.not_mem_nil h).elim⟩
  have hintegral : quoting.toJson.Integral := by
    simp [quoting, Database.toJson, Record.toJson, Ast.toJson, Database.indexToJson, Dict.empty,
      Json.Integral, Json.IntegralEntries, Json.IntegralItems, Json.InRange, Json.nat,
      Json.maxSignificand]
  have hdepth : quoting.toJson.depth < Json.maxDepth := by decide
  have hread : Record.ofText? spacedText = some spaced := by cbv
  obtain ⟨⟨hdocs, -⟩, hreread⟩ :=
    hdatabase { pretty := false } default {} [] quoting hsound hintegral hdepth
  rw [hreread.mpr (by simp [quoting])] at hdocs
  refine ⟨hsound, hintegral, hdepth, hdocs, hread, ?_⟩
  exact (((htext _ _).1 hread).2.2
    (by simp [spaced, Record.toJson, Json.Integral, Json.IntegralEntries, Json.IntegralItems,
      Json.InRange, Json.maxSignificand])).1

-- An entity that is spelled as a file, with a field that does not stand where its key would.
def misspelled : Database :=
  { records := [{ kind := .entity "file", fields := ⟨[("name", .string "A"), ("line", .nat 3)]⟩ }] }

-- It is read as a file, and from a value its fields come in another order.
theorem misspelled_published : misspelled.Sound ∧ misspelled.toJson.Integral ∧
    misspelled.toJson.depth < Json.maxDepth ∧
    misspelled.records.map (fun record => (record.kind, record.fields.keys)) =
      [(.entity "file", ["name", "line"])] ∧
    (∃ entries docs read,
      Json.read? (render {} (document default {} [] misspelled)).toList = some (.object entries) ∧
      Json.lookup "docs" entries = some docs ∧ Database.ofJson? docs = some read ∧
      read.records.map (fun record => (record.kind, record.fields.keys)) =
        [(.file, ["name", "line"])]) ∧
    ∃ entries docs read,
      Json.parse? (render {} (document default {} [] misspelled)) = some (.object entries) ∧
      Json.lookup "docs" entries = some docs ∧ Database.ofJson? docs = some read ∧
      read.records.map (fun record => (record.kind, record.fields.keys)) =
        [(.file, ["line", "name"])] := by
  have hsound : misspelled.Sound := by
    refine ⟨List.forall_mem_singleton.mpr ⟨by decide, by decide, ?_⟩,
      fun _ h => (List.not_mem_nil h).elim, List.nodup_nil⟩
    simp only [List.forall_mem_cons]
    exact ⟨.string _, .number _, fun _ h => (List.not_mem_nil h).elim⟩
  have hintegral : misspelled.toJson.Integral := by
    simp [misspelled, Database.toJson, Record.toJson, Database.indexToJson, Dict.empty,
      Json.Integral, Json.IntegralEntries, Json.IntegralItems, Json.InRange, Json.nat,
      Json.maxSignificand]
  have hdepth : misspelled.toJson.depth < Json.maxDepth := by decide
  have hkeys : (Dict.sorted ⟨[("name", Json.string "A"), ("line", .nat 3)]⟩).keys =
      ["line", "name"] := by
    rw [Dict.keys, ← Json.sortEntries_eq_sorted (by decide)]
    decide
  obtain ⟨⟨entries, docs, hread, hdocs, hdb⟩, ⟨entries', docs', hparse, hdocs', hdb'⟩⟩ :=
    docs_of_render {} default {} [] hsound hintegral hdepth
  exact ⟨hsound, hintegral, hdepth, rfl, ⟨entries, docs, _, hread, hdocs, hdb, rfl⟩,
    ⟨entries', docs', _, hparse, hdocs', hdb', congrArg (fun keys => [(DocKind.file, keys)]) hkeys⟩⟩

end JsonPublisher

end DocPipeline
