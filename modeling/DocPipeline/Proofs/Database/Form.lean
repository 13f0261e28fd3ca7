import DocPipeline.Database.Basic
import DocPipeline.Json.Access
import DocPipeline.Proofs.Json.Written
import Mathlib.Data.List.Nodup

namespace DocPipeline

namespace Dict

variable {α : Type} {key : String} {value : α} {entries : List (String × α)}

theorem insertEntry_of_notMem (h : key ∉ entries.map Prod.fst) :
    insertEntry key value entries = entries ++ [(key, value)] := by
  induction entries with
  | nil => rfl
  | cons entry rest ih =>
    obtain ⟨hne, hrest⟩ := not_or.mp (List.mem_cons.not.mp h)
    rw [insertEntry, if_neg (Ne.symm hne), ih hrest, List.cons_append]

theorem keys_insertEntry (key : String) (value : α) (entries : List (String × α)) :
    (insertEntry key value entries).map Prod.fst =
      if key ∈ entries.map Prod.fst then entries.map Prod.fst
      else entries.map Prod.fst ++ [key] := by
  induction entries with
  | nil => rfl
  | cons entry rest ih =>
    by_cases hk : entry.1 = key
    · simp [insertEntry, hk]
    · have hne : key ≠ entry.1 := Ne.symm hk
      rw [insertEntry, if_neg hk, List.map_cons, ih]
      simp only [List.map_cons, List.mem_cons, hne, false_or]
      split <;> rfl

theorem mem_insertEntry {entry : String × α} (h : entry ∈ insertEntry key value entries) :
    entry = (key, value) ∨ entry ∈ entries := by
  induction entries with
  | nil => exact .inl (List.mem_singleton.mp h)
  | cons first rest ih =>
    rw [insertEntry] at h
    split at h
    next hk =>
      rcases List.mem_cons.mp h with h | h
      · exact .inl (hk ▸ h)
      · exact .inr (List.mem_cons_of_mem _ h)
    next =>
      rcases List.mem_cons.mp h with h | h
      · exact .inr (h ▸ List.mem_cons_self)
      · exact (ih h).imp id (List.mem_cons_of_mem _)

theorem nodup_insertEntry (h : (entries.map Prod.fst).Nodup) :
    ((insertEntry key value entries).map Prod.fst).Nodup := by
  rw [keys_insertEntry]
  split
  · exact h
  next hk => exact h.append (List.nodup_singleton key) (List.disjoint_singleton.mpr hk)

theorem nodup_keys_ofList (entries : List (String × α)) : (ofList entries).keys.Nodup := by
  have hfold : ∀ dict : Dict α, dict.keys.Nodup →
      (entries.foldl (fun dict entry => dict.insert entry.1 entry.2) dict).keys.Nodup := by
    induction entries with
    | nil => exact fun _ h => h
    | cons entry rest ih => exact fun dict h => ih _ (nodup_insertEntry h)
  exact hfold empty List.nodup_nil

theorem mem_ofList {entry : String × α} (h : entry ∈ (ofList entries).entries) :
    entry ∈ entries := by
  have hfold : ∀ dict : Dict α,
      entry ∈ (entries.foldl (fun dict entry => dict.insert entry.1 entry.2) dict).entries →
        entry ∈ entries ∨ entry ∈ dict.entries := by
    clear h
    induction entries with
    | nil => exact fun _ h => .inr h
    | cons first rest ih =>
      intro dict h
      rcases ih _ h with h | h
      · exact .inl (List.mem_cons_of_mem _ h)
      · rcases mem_insertEntry h with rfl | h
        · exact .inl List.mem_cons_self
        · exact .inr h
  rcases hfold empty h with h | h
  · exact h
  · cases h

-- Entries that were put once each stand as they were put.
theorem ofList_entries {dict : Dict α} (h : dict.keys.Nodup) : ofList dict.entries = dict := by
  have hfold : ∀ rest done : List (String × α), ((done ++ rest).map Prod.fst).Nodup →
      rest.foldl (fun dict entry => dict.insert entry.1 entry.2) (⟨done⟩ : Dict α) =
        ⟨done ++ rest⟩ := by
    intro rest
    induction rest with
    | nil => exact fun done _ => by rw [List.append_nil, List.foldl_nil]
    | cons entry rest ih =>
      intro done hd
      have hnew : entry.1 ∉ done.map Prod.fst := by
        rw [List.map_append, List.map_cons] at hd
        exact fun hmem => (List.nodup_append.mp hd).2.2 _ hmem _ List.mem_cons_self rfl
      rw [List.append_cons] at hd ⊢
      rw [List.foldl_cons, insert, insertEntry_of_notMem hnew]
      exact ih _ hd
  exact hfold dict.entries [] h

end Dict

namespace Record

variable {record : Record} {value : Json}

-- The record with the kind that the text of its kind is read as.
def reread (record : Record) : Record := { record with kind := .ofText record.kind.text }

theorem reread_eq_self_iff : record.reread = record ↔
    record.kind ≠ .entity "file" ∧ record.kind ≠ .entity "testFile" := by
  rw [← DocKind.ofText_text]
  constructor
  · exact congrArg kind
  · intro h
    rw [reread, h]

-- What holds of every record that was read: each field once, none with a name of its own meaning.
structure Sound (record : Record) : Prop where
  distinct : record.fields.keys.Nodup
  unreserved : ∀ key ∈ record.fields.keys, key ∉ reserved
  canonical : ∀ entry ∈ record.fields.entries, entry.2.IsCanonical

-- The entries of the form that are not fields.
def head (record : Record) : List (String × Json) :=
  ("kind", .string record.kind.text) ::
    (record.content.map fun text => ("content", .string text)).toList ++
    if record.isVirtual then [("builtinVirtual", .bool true)] else []

theorem toJson_eq (record : Record) :
    record.toJson = .object (record.head ++ record.fields.entries) := by
  obtain ⟨kind, content, isVirtual, fields⟩ := record
  cases content <;> rfl

theorem reserved_of_mem_head {entry : String × Json} (h : entry ∈ record.head) :
    entry.1 ∈ reserved := by
  obtain ⟨kind, content, isVirtual, fields⟩ := record
  cases content <;> cases isVirtual <;> simp [head, reserved] at h ⊢ <;> grind

theorem value_of_mem_head {entry : String × Json} (h : entry ∈ record.head) :
    (∃ text, entry.2 = .string text) ∨ entry.2 = .bool true := by
  obtain ⟨kind, content, isVirtual, fields⟩ := record
  cases content <;> cases isVirtual <;> simp [head] at h <;> grind

theorem nodup_head (record : Record) : (record.head.map Prod.fst).Nodup := by
  obtain ⟨kind, content, isVirtual, fields⟩ := record
  cases content <;> cases isVirtual <;> simp [head]

theorem Sound.lookup (h : record.Sound) {key : String} (hk : key ∈ reserved) :
    Json.lookup key (record.head ++ record.fields.entries) = Json.lookup key record.head := by
  have hfields : Json.lookup key record.fields.entries = none := by
    rw [Json.lookup_eq_none_iff]
    intro entry hentry he
    exact h.unreserved key (he ▸ List.mem_map_of_mem hentry) hk
  rw [Json.lookup_append, hfields, Option.or_none]

theorem Sound.nodup (h : record.Sound) :
    ((record.head ++ record.fields.entries).map Prod.fst).Nodup := by
  rw [List.map_append]
  refine record.nodup_head.append h.distinct fun key hhead hfields => ?_
  obtain ⟨entry, hentry, rfl⟩ := List.mem_map.mp hhead
  exact h.unreserved entry.1 hfields (reserved_of_mem_head hentry)

theorem Sound.others (h : record.Sound) :
    (record.head ++ record.fields.entries).filter (fun entry => !reserved.contains entry.1) =
      record.fields.entries := by
  have hhead : record.head.filter (fun entry => !reserved.contains entry.1) = [] := by
    rw [List.filter_eq_nil_iff]
    intro entry hentry
    simp [reserved_of_mem_head hentry]
  have hfields : record.fields.entries.filter (fun entry => !reserved.contains entry.1) =
      record.fields.entries := by
    rw [List.filter_eq_self]
    intro entry hentry
    simp [h.unreserved entry.1 (List.mem_map_of_mem hentry)]
  rw [List.filter_append, hhead, hfields, List.nil_append]

-- Entries are read as a record if they show its head; what is not reserved are the fields.
theorem ofJson?_object {entries : List (String × Json)} {fields : Dict Json}
    (hd : (entries.map Prod.fst).Nodup)
    (hhead : ∀ key ∈ reserved, Json.lookup key entries = Json.lookup key record.head)
    (hothers : entries.filter (fun entry => !reserved.contains entry.1) = fields.entries)
    (hcanonical : ∀ entry ∈ fields.entries, entry.2.IsCanonical) :
    ofJson? (.object entries) = some { record.reread with fields := fields } := by
  have hcount : reserved.any (fun key => decide (1 < (entries.map (·.1)).count key)) = false := by
    rw [List.any_eq_false]
    intro key _
    simpa using List.nodup_iff_count_le_one.mp hd key
  have hvalues : fields.entries.map (fun entry => (entry.1, entry.2.canonical)) =
      fields.entries := by
    rw [← Json.canonicalEntries_eq_map, Json.canonicalEntries_of_isCanonical hcanonical]
  have hdistinct : fields.keys.Nodup := by
    rw [Dict.keys, ← hothers]
    exact hd.sublist ((List.filter_sublist).map _)
  simp only [ofJson?, hcount, hothers, hvalues, Dict.ofList_entries hdistinct, Json.fieldD?,
    hhead "kind" (by decide), hhead "content" (by decide), hhead "builtinVirtual" (by decide)]
  obtain ⟨kind, content, isVirtual, _⟩ := record
  cases content <;> cases isVirtual <;> rfl

theorem Sound.ofJson?_toJson (h : record.Sound) : ofJson? record.toJson = some record.reread := by
  rw [toJson_eq]
  exact ofJson?_object h.nodup (fun key hk => h.lookup hk) h.others h.canonical

-- What was read: its fields, and where they come from, and the text of its kind.
theorem exists_of_ofJson? (h : ofJson? value = some record) :
    ∃ entries, value = .object entries ∧ (∃ text, record.kind = .ofText text) ∧
      record.fields = .ofList ((entries.filter fun entry => !reserved.contains entry.1).map
        fun entry => (entry.1, entry.2.canonical)) := by
  cases value with
  | object entries =>
    simp only [ofJson?] at h
    split at h
    · cases h
    · simp only [Option.bind_eq_bind, Option.bind_eq_some_iff] at h
      obtain ⟨_, _, _, _, _, _, h⟩ := h
      cases h
      exact ⟨entries, rfl, ⟨_, rfl⟩, rfl⟩
  | _ => cases h

theorem reread_of_ofJson? (h : ofJson? value = some record) : record.reread = record := by
  obtain ⟨-, -, ⟨text, hkind⟩, -⟩ := exists_of_ofJson? h
  rw [reread, hkind, DocKind.text_ofText, ← hkind]

-- Every field that was read is a field of the value, and not a reserved one.
theorem mem_of_ofJson? (h : ofJson? value = some record) :
    ∃ entries, value = .object entries ∧ ∀ entry ∈ record.fields.entries,
      entry.1 ∉ reserved ∧ ∃ given, (entry.1, given) ∈ entries ∧ entry.2 = given.canonical := by
  obtain ⟨entries, rfl, -, hfields⟩ := exists_of_ofJson? h
  refine ⟨entries, rfl, fun entry hentry => ?_⟩
  rw [hfields] at hentry
  obtain ⟨given, hgiven, rfl⟩ := List.mem_map.mp (Dict.mem_ofList hentry)
  obtain ⟨hgiven, hkey⟩ := List.mem_filter.mp hgiven
  exact ⟨by simpa using hkey, given.2, hgiven, rfl⟩

theorem sound_of_ofJson? (h : ofJson? value = some record) : record.Sound := by
  obtain ⟨entries, -, hmem⟩ := mem_of_ofJson? h
  obtain ⟨_, -, -, hfields⟩ := exists_of_ofJson? h
  refine ⟨hfields ▸ Dict.nodup_keys_ofList _, fun key hkey => ?_, fun entry hentry => ?_⟩
  · obtain ⟨entry, hentry, rfl⟩ := List.mem_map.mp hkey
    exact (hmem entry hentry).1
  · obtain ⟨-, given, -, hgiven⟩ := hmem entry hentry
    exact hgiven ▸ Json.isCanonical_canonical given

theorem depth_of_mem_head {entry : String × Json} (h : entry ∈ record.head) :
    entry.2.depth = 0 := by
  obtain ⟨text, htext⟩ | hmark := value_of_mem_head h
  · exact htext ▸ rfl
  · exact hmark ▸ rfl

-- A record nests no deeper than what it was read from.
theorem depth_toJson_le (h : ofJson? value = some record) : record.toJson.depth ≤ value.depth := by
  obtain ⟨entries, rfl, hmem⟩ := mem_of_ofJson? h
  rw [toJson_eq]
  refine Nat.succ_le_succ (Json.depthEntries_le_iff.mpr fun entry hentry => ?_)
  rcases List.mem_append.mp hentry with hentry | hentry
  · exact (depth_of_mem_head hentry).trans_le (Nat.zero_le _)
  · obtain ⟨-, given, hgiven, hvalue⟩ := hmem entry hentry
    calc
      entry.2.depth ≤ given.depth := hvalue ▸ Json.depth_canonical_le given
      _ ≤ Json.depthEntries entries := Json.depthEntries_le_iff.mp le_rfl _ hgiven

end Record

namespace Ast

def ofJson? : Json → Option Ast
  | .object entries => do
    let filePath ← (Json.lookup "filePath" entries).bind Json.asString?
    let tree ← Json.lookup "ast" entries
    return ⟨filePath, tree.canonical⟩
  | _ => none

theorem ofJson?_toJson {ast : Ast} (h : ast.tree.IsCanonical) : ofJson? ast.toJson = some ast := by
  simp [toJson, ofJson?, Json.lookup, Json.asString?, h.canonical_eq]

end Ast

namespace Database

variable {db : Database}

-- The database with every record as it is read.
def reread (db : Database) : Database := { db with records := db.records.map Record.reread }

theorem reread_eq_self_iff : db.reread = db ↔
    ∀ record ∈ db.records, record.kind ≠ .entity "file" ∧ record.kind ≠ .entity "testFile" := by
  have hrecords : db.reread = db ↔ db.records.map Record.reread = db.records.map id := by
    rw [List.map_id]
    constructor
    · exact congrArg records
    · intro h
      rw [reread, h]
  rw [hrecords, List.map_inj_left]
  exact forall₂_congr fun record _ => record.reread_eq_self_iff

-- What holds of every database that was built from records that were read.
structure Sound (db : Database) : Prop where
  records : ∀ record ∈ db.records, record.Sound
  asts : ∀ ast ∈ db.asts, ast.tree.IsCanonical
  index : db.index.keys.Nodup

def listOfJson? {α : Type} (read? : Json → Option α) : Json → Option (List α)
  | .array items => items.mapM read?
  | _ => none

def indexOfJson? : Json → Option (Dict (List Nat))
  | .object entries => do
    let entries ← entries.mapM fun (key, positions) => do
      return (key, ← listOfJson? Json.asNat? positions)
    return .ofList entries
  | _ => none

def ofJson? (value : Json) : Option Database := do
  let records ← (value.get? "records").bind (listOfJson? Record.ofJson?)
  let asts ← (value.get? "asts").bind (listOfJson? Ast.ofJson?)
  let index ← (value.get? "index").bind indexOfJson?
  let generation ← (value.get? "generation").bind Json.asNat?
  return { records, asts, index, generation }

theorem asNat?_nat (n : Nat) : (Json.nat n).asNat? = some n := by
  simp [Json.nat, Json.asNat?]

theorem indexOfJson?_indexToJson {index : Dict (List Nat)} (h : index.keys.Nodup) :
    indexOfJson? (indexToJson index) = some index := by
  have hpositions : ∀ positions : List Nat,
      listOfJson? Json.asNat? (.array (positions.map .nat)) = some positions :=
    fun positions => Json.mapM_eq_some_of_mem fun n _ => asNat?_nat n
  have hentries : (index.entries.map fun entry =>
      (entry.1, Json.array (entry.2.map Json.nat))).mapM (fun entry => do
        return (entry.1, ← listOfJson? Json.asNat? entry.2)) = some index.entries :=
    Json.mapM_eq_some_of_mem fun entry _ => by simp [hpositions]
  simp only [indexOfJson?, indexToJson, hentries]
  exact congrArg some (Dict.ofList_entries h)

theorem Sound.ofJson?_toJson (h : db.Sound) : ofJson? db.toJson = some db.reread := by
  have hrecords : (db.records.map Record.toJson).mapM Record.ofJson? =
      some (db.records.map Record.reread) :=
    Json.mapM_map_eq_some fun record hrecord => (h.records record hrecord).ofJson?_toJson
  have hasts : (db.asts.map Ast.toJson).mapM Ast.ofJson? = some db.asts :=
    Json.mapM_eq_some_of_mem fun ast hast => Ast.ofJson?_toJson (h.asts ast hast)
  simp [ofJson?, toJson, reread, Json.get?, Json.lookup, listOfJson?, hrecords, hasts,
    indexOfJson?_indexToJson h.index, asNat?_nat]

end Database

end DocPipeline
