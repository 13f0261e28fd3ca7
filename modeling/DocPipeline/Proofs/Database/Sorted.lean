import DocPipeline.Proofs.Database.Form
import Mathlib.Data.List.Sort

namespace DocPipeline

namespace Dict

variable {α β : Type} {dict : Dict α}

def keyLe (entry later : String × α) : Bool := decide (entry.1 ≤ later.1)

-- The same entries, by their keys.
def sorted (dict : Dict α) : Dict α := ⟨dict.entries.mergeSort keyLe⟩

theorem perm_sorted (dict : Dict α) : dict.sorted.entries.Perm dict.entries :=
  List.mergeSort_perm _ _

theorem nodup_keys_sorted (h : dict.keys.Nodup) : dict.sorted.keys.Nodup :=
  (dict.perm_sorted.map Prod.fst).nodup_iff.mpr h

theorem pairwise_sorted (dict : Dict α) :
    dict.sorted.entries.Pairwise fun entry later => entry.1 ≤ later.1 := by
  have htrans : ∀ a b c : String × α, keyLe a b → keyLe b c → keyLe a c := fun a b c hab hbc =>
    decide_eq_true ((of_decide_eq_true hab).trans (of_decide_eq_true hbc))
  have htotal : ∀ a b : String × α, (keyLe a b || keyLe b a) = true := fun a b => by
    simpa [keyLe] using le_total a.1 b.1
  exact (List.pairwise_mergeSort htrans htotal dict.entries).imp of_decide_eq_true

theorem sorted_of_pairwise (h : dict.entries.Pairwise fun entry later => entry.1 ≤ later.1) :
    dict.sorted = dict :=
  congrArg Dict.mk (List.mergeSort_of_pairwise (h.imp decide_eq_true))

-- Only the keys say where an entry goes.
theorem entries_sorted_map (dict : Dict α) (change : α → β) :
    (sorted ⟨dict.entries.map fun entry => (entry.1, change entry.2)⟩).entries =
      dict.sorted.entries.map fun entry => (entry.1, change entry.2) := by
  have hkeys : ∀ entry ∈ dict.entries, ∀ later ∈ dict.entries,
      keyLe entry later = keyLe (entry.1, change entry.2) (later.1, change later.2) :=
    fun _ _ _ _ => rfl
  exact (List.map_mergeSort hkeys).symm

end Dict

namespace Json

theorem sortEntries_eq_sorted {dict : Dict Json} (hd : dict.keys.Nodup) :
    sortEntries dict.entries = dict.sorted.entries := by
  have hne : dict.sorted.entries.Pairwise fun entry later => entry.1 ≠ later.1 :=
    List.pairwise_map.mp (Dict.nodup_keys_sorted hd)
  have hincreasing : Increasing dict.sorted.entries :=
    (dict.pairwise_sorted.and hne).imp fun h => lt_of_le_of_ne h.1 h.2
  refine (increasing_sortEntries _).ext hincreasing fun key => ?_
  rw [lookup_sorted hd, lookup_perm hd dict.perm_sorted]

end Json

namespace Record

variable {record : Record} {value : Json}

def sorted (record : Record) : Record := { record with fields := record.fields.sorted }

theorem isCanonical_of_mem_head {entry : String × Json} (h : entry ∈ record.head) :
    entry.2.IsCanonical := by
  obtain ⟨text, htext⟩ | hmark := value_of_mem_head h
  · exact htext ▸ .string text
  · exact hmark ▸ .bool true

-- A record that is read from a value is read with its fields by their keys.
theorem Sound.ofJson?_canonical (h : record.Sound) :
    ofJson? record.toJson.canonical = some record.reread.sorted := by
  have hvalues : Json.canonicalEntries (record.head ++ record.fields.entries) =
      record.head ++ record.fields.entries :=
    Json.canonicalEntries_of_isCanonical fun entry hentry =>
      (List.mem_append.mp hentry).elim isCanonical_of_mem_head (h.canonical entry)
  have hlookup : ∀ key ∈ reserved,
      Json.lookup key (Json.sortEntries (record.head ++ record.fields.entries)) =
        Json.lookup key record.head := by
    intro key hk
    rw [Json.lookup_sorted h.nodup, h.lookup hk]
  have hothers : (Json.sortEntries (record.head ++ record.fields.entries)).filter
      (fun entry => !reserved.contains entry.1) = record.fields.sorted.entries := by
    rw [Json.filter_sortEntries h.nodup fun key => !reserved.contains key, h.others,
      Json.sortEntries_eq_sorted h.distinct]
  rw [toJson_eq, Json.canonical, hvalues]
  exact ofJson?_object (Json.increasing_sortEntries _).nodup hlookup hothers fun entry hentry =>
    h.canonical entry (record.fields.perm_sorted.mem_iff.mp hentry)

-- A record that was read from a value has its fields by their keys already.
theorem sorted_of_ofJson?_canonical (h : ofJson? value.canonical = some record) :
    record.sorted = record := by
  obtain ⟨entries, hvalue, -, hfields⟩ := exists_of_ofJson? h
  have hentries : Json.Increasing entries :=
    (hvalue ▸ Json.isCanonical_canonical value).increasing
  have hkept : ((entries.filter fun entry => !reserved.contains entry.1).map fun entry =>
      (entry.1, entry.2.canonical)).Pairwise fun entry later => entry.1 < later.1 :=
    List.pairwise_map.mpr (hentries.filter _)
  rw [Dict.ofList_entries (Json.Increasing.nodup hkept)] at hfields
  rw [sorted, Dict.sorted_of_pairwise (hfields ▸ hkept.imp le_of_lt)]

end Record

theorem Ast.ofJson?_canonical {ast : Ast} (h : ast.tree.IsCanonical) :
    ofJson? ast.toJson.canonical = some ast := by
  let entries : List (String × Json) := [("filePath", .string ast.filePath), ("ast", ast.tree)]
  have hkeys : (entries.map Prod.fst).Nodup := by
    change ["filePath", "ast"].Nodup
    decide
  have hpath : Json.lookup "filePath" (Json.sortEntries (Json.canonicalEntries entries)) =
      some (.string ast.filePath) := Json.lookup_canonical hkeys "filePath"
  have htree : Json.lookup "ast" (Json.sortEntries (Json.canonicalEntries entries)) =
      some ast.tree :=
    (Json.lookup_canonical hkeys "ast").trans (congrArg some h.canonical_eq)
  change ofJson? (.object (Json.sortEntries (Json.canonicalEntries entries))) = some ast
  simp [ofJson?, hpath, htree, Json.asString?, h.canonical_eq]

namespace Database

variable {db : Database}

-- The database with the fields of its records, and its index, by their keys.
def sorted (db : Database) : Database :=
  { db with records := db.records.map Record.sorted, index := db.index.sorted }

theorem canonical_indexToJson {index : Dict (List Nat)} (h : index.keys.Nodup) :
    (indexToJson index).canonical = indexToJson index.sorted := by
  let shown : Dict Json := ⟨index.entries.map fun entry => (entry.1, .array (entry.2.map .nat))⟩
  have hvalues : Json.canonicalEntries shown.entries = shown.entries := by
    refine Json.canonicalEntries_of_isCanonical (List.forall_mem_map.mpr fun entry _ => ?_)
    exact .array (List.forall_mem_map.mpr fun _ _ => .number _)
  have hkeys : shown.keys.Nodup := by
    rw [Dict.keys, List.map_map]
    exact h
  calc (indexToJson index).canonical
      = .object (Json.sortEntries (Json.canonicalEntries shown.entries)) := rfl
    _ = .object shown.sorted.entries := by rw [hvalues, Json.sortEntries_eq_sorted hkeys]
    _ = indexToJson index.sorted :=
      congrArg Json.object (index.entries_sorted_map fun positions =>
        Json.array (positions.map .nat))

-- The same for a database. The keys of its index come sorted too.
theorem Sound.ofJson?_canonical (h : db.Sound) :
    ofJson? db.toJson.canonical = some db.reread.sorted := by
  have hget : ∀ key, db.toJson.canonical.get? key = (db.toJson.get? key).map Json.canonical := by
    have hkeys : ["records", "asts", "index", "generation"].Nodup := by decide
    exact Json.lookup_canonical hkeys
  have hrecords : (db.toJson.canonical.get? "records").bind (listOfJson? Record.ofJson?) =
      some (db.records.map fun record => record.reread.sorted) := by
    rw [hget]
    change (Json.canonicalItems (db.records.map Record.toJson)).mapM Record.ofJson? = _
    rw [Json.canonicalItems_eq_map, List.map_map]
    exact Json.mapM_map_eq_some fun record hrecord =>
      (h.records record hrecord).ofJson?_canonical
  have hasts : (db.toJson.canonical.get? "asts").bind (listOfJson? Ast.ofJson?) =
      some db.asts := by
    rw [hget]
    change (Json.canonicalItems (db.asts.map Ast.toJson)).mapM Ast.ofJson? = _
    rw [Json.canonicalItems_eq_map, List.map_map]
    exact Json.mapM_eq_some_of_mem fun ast hast => Ast.ofJson?_canonical (h.asts ast hast)
  have hindex : (db.toJson.canonical.get? "index").bind indexOfJson? = some db.index.sorted := by
    rw [hget]
    change indexOfJson? (indexToJson db.index).canonical = _
    rw [canonical_indexToJson h.index, indexOfJson?_indexToJson (Dict.nodup_keys_sorted h.index)]
  have hgeneration : (db.toJson.canonical.get? "generation").bind Json.asNat? =
      some db.generation := by
    rw [hget]
    exact asNat?_nat db.generation
  rw [ofJson?, hrecords, hasts, hindex, hgeneration]
  simp [reread, sorted]

end Database

end DocPipeline
