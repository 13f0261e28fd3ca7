import DocPipeline.Database.Index
import DocPipeline.Proofs.Database.Form

namespace DocPipeline

namespace Dict

variable {α : Type}

theorem get?_insert (dict : Dict α) (key other : String) (value : α) :
    (dict.insert key value).get? other = if other = key then some value else dict.get? other := by
  obtain ⟨entries⟩ := dict
  simp only [insert, get?]
  induction entries with
  | nil =>
    by_cases h : other = key
    · simp [insertEntry, h]
    · simp [insertEntry, h, Ne.symm h]
  | cons entry rest ih =>
    obtain ⟨k, v⟩ := entry
    by_cases hk : k = key
    · subst hk
      by_cases h : other = k
      · simp [insertEntry, h]
      · simp [insertEntry, h, Ne.symm h]
    · by_cases ho : k = other
      · subst ho
        simp [insertEntry, hk]
      · rw [insertEntry, if_neg hk, List.find?_cons_of_neg (by simpa using ho), ih,
          List.find?_cons_of_neg (by simpa using ho)]

theorem get?_eq_none_iff {dict : Dict α} {key : String} :
    dict.get? key = none ↔ key ∉ dict.keys := by
  rw [get?, Option.map_eq_none_iff, List.find?_eq_none, keys, List.mem_map]
  constructor
  · rintro hne ⟨entry, hmem, rfl⟩
    exact hne entry hmem (beq_self_eq_true entry.1)
  · intro hnot entry hmem heq
    exact hnot ⟨entry, hmem, eq_of_beq heq⟩

end Dict

namespace Record

-- A record goes by its name and by its long name.
def goesBy (key : String) (record : Record) : Bool :=
  record.textField? "name" = some key || record.textField? "longname" = some key

def names (record : Record) : List String :=
  (record.textField? "name").toList ++ (record.textField? "longname").toList

theorem recordKeys_eq_names (record : Record) : Database.recordKeys record = record.names := by
  rw [Database.recordKeys, names]
  cases hn : record.textField? "name" <;> cases hl : record.textField? "longname" <;>
    simp [hn, hl]

theorem mem_names {record : Record} {key : String} :
    key ∈ record.names ↔ record.goesBy key = true := by
  simp [names, goesBy]

end Record

namespace Database

variable {index : Dict (List Nat)} {position : Nat} {key other : String}

-- A position is entered after the others, unless it was entered last.
def entered (position : Nat) (positions : List Nat) : List Nat :=
  if positions.getLast? = some position then positions else positions ++ [position]

theorem entered_entered (position : Nat) (positions : List Nat) :
    entered position (entered position positions) = entered position positions := by
  have hlast : (entered position positions).getLast? = some position := by
    rw [entered]
    split
    next h => exact h
    next => exact List.getLast?_concat
  rw [entered, if_pos hlast]

theorem entered_of_lt {positions : List Nat} (h : ∀ p ∈ positions, p < position) :
    entered position positions = positions ++ [position] :=
  if_neg fun hlast => Nat.lt_irrefl _ (h _ (List.mem_of_getLast? hlast))

theorem get?_enter (index : Dict (List Nat)) (position : Nat) (key other : String) :
    (enter index position key).get? other =
      if other = key then some (entered position ((index.get? key).getD []))
      else index.get? other := by
  rw [enter, entered]
  split
  next hlast =>
    split
    next ho =>
      -- A list that ends with the position is not the one that stands for a missing key.
      rw [ho]
      cases hget : index.get? key with
      | none => simp [hget] at hlast
      | some positions => rfl
    next => rfl
  next => rw [Dict.get?_insert]

-- A record is entered once under each of its keys, however often the key occurs.
theorem get?_enterAll (keys : List String) (index : Dict (List Nat)) (position : Nat)
    (other : String) : (keys.foldl (fun i key => enter i position key) index).get? other =
      if other ∈ keys then some (entered position ((index.get? other).getD []))
      else index.get? other := by
  induction keys generalizing index with
  | nil => rfl
  | cons key rest ih =>
    rw [List.foldl_cons, ih, get?_enter]
    by_cases hk : other = key
    · subst hk
      simp [entered_entered]
    · simp [hk]

theorem get?_indexFrom (records : List Record)
    (hlt : ∀ p ∈ (index.get? key).getD [], p < position) :
    (indexFrom index position records).get? key =
      if records.any (Record.goesBy key) then
        some ((index.get? key).getD [] ++ records.findIdxs (Record.goesBy key) position)
      else index.get? key := by
  induction records generalizing index position with
  | nil => rfl
  | cons record rest ih =>
    have hfirst := get?_enterAll record.names index position key
    rw [indexFrom, Record.recordKeys_eq_names, List.any_cons, List.findIdxs_cons]
    by_cases hkey : record.goesBy key = true
    · rw [if_pos (Record.mem_names.mpr hkey), entered_of_lt hlt] at hfirst
      have hbelow : ∀ p ∈ (index.get? key).getD [] ++ [position], p < position + 1 := by
        intro p hp
        rcases List.mem_append.mp hp with hp | hp
        · exact Nat.lt_succ_of_lt (hlt p hp)
        · exact Nat.lt_succ_of_le (List.mem_singleton.mp hp).le
      rw [ih (by rwa [hfirst]), hfirst, hkey, Bool.true_or, if_pos rfl, if_pos rfl]
      split
      next => rw [Option.getD_some, List.append_assoc, List.singleton_append]
      next hnone =>
        rw [List.findIdxs_eq_nil_iff.mpr (by simpa using hnone)]
    · rw [if_neg (mt Record.mem_names.mp hkey)] at hfirst
      have hbelow : ∀ p ∈ (index.get? key).getD [], p < position + 1 := fun p hp =>
        Nat.lt_succ_of_lt (hlt p hp)
      rw [ih (by rwa [hfirst]), hfirst, if_neg hkey, Bool.eq_false_iff.mpr hkey, Bool.false_or]

theorem keys_enter {seen : List String} (h : index.keys = seen.eraseDups) (position : Nat)
    (key : String) : (enter index position key).keys = (seen ++ [key]).eraseDups := by
  have hmem : key ∈ index.keys ↔ key ∈ seen := by rw [h, List.mem_eraseDups]
  have hkeys : (enter index position key).keys =
      if key ∈ index.keys then index.keys else index.keys ++ [key] := by
    rw [enter]
    split
    next hlast =>
      have hget : index.get? key ≠ none := fun hnone => by simp [hnone] at hlast
      rw [if_pos (not_not.mp (mt Dict.get?_eq_none_iff.mpr hget))]
    next => exact Dict.keys_insertEntry _ _ _
  rw [hkeys, List.eraseDups_append, ← h]
  by_cases hk : key ∈ seen
  · simp [hmem.mpr hk, List.removeAll, hk]
  · simp [mt hmem.mp hk, List.removeAll, hk, List.eraseDups_cons]

theorem keys_enterAll {seen : List String} (keys : List String) (h : index.keys = seen.eraseDups)
    (position : Nat) : (keys.foldl (fun i key => enter i position key) index).keys =
      (seen ++ keys).eraseDups := by
  induction keys generalizing index seen with
  | nil => rw [List.append_nil, List.foldl_nil, h]
  | cons key rest ih => rw [List.foldl_cons, ih (keys_enter h position key), List.append_assoc,
      List.singleton_append]

theorem keys_indexFrom {seen : List String} (records : List Record)
    (h : index.keys = seen.eraseDups) (position : Nat) :
    (indexFrom index position records).keys =
      (seen ++ records.flatMap Record.names).eraseDups := by
  induction records generalizing index seen position with
  | nil => rw [List.flatMap_nil, List.append_nil, indexFrom, h]
  | cons record rest ih =>
    rw [indexFrom, Record.recordKeys_eq_names, ih (keys_enterAll record.names h position),
      List.flatMap_cons, List.append_assoc]

theorem get?_reindex (db : Database) (key : String) : db.reindex.index.get? key =
    if db.records.any (Record.goesBy key) then some (db.records.findIdxs (Record.goesBy key))
    else none :=
  get?_indexFrom db.records nofun

-- The index says of each key by which records it is gone by, and nothing else.
structure Indexed (db : Database) : Prop where
  found : ∀ key, (db.index.get? key).isSome ↔ ∃ record ∈ db.records, record.goesBy key = true
  increasing : ∀ key positions, db.index.get? key = some positions → positions.Pairwise (· < ·)
  mem_iff : ∀ key positions, db.index.get? key = some positions → ∀ position,
    position ∈ positions ↔ ∃ record, db.records[position]? = some record ∧ record.goesBy key = true
  inRange : ∀ key positions, db.index.get? key = some positions →
    ∀ position ∈ positions, position < db.records.length
  keys : db.index.keys = (db.records.flatMap Record.names).eraseDups
  lookup : ∀ key, db.lookup key = db.records.filter (Record.goesBy key)

-- The items at the positions found are the items that were looked for.
theorem filterMap_findIdxs {α : Type} (p : α → Bool) (before items : List α) :
    (items.findIdxs p before.length).filterMap (fun i => (before ++ items)[i]?) =
      items.filter p := by
  induction items generalizing before with
  | nil => rfl
  | cons item rest ih =>
    have hrest := ih (before ++ [item])
    rw [List.length_append, List.length_singleton, ← List.append_cons] at hrest
    rw [List.findIdxs_cons, List.filter_cons]
    split
    next => simp [hrest]
    next => exact hrest

theorem indexed_reindex (db : Database) : db.reindex.Indexed := by
  have hpositions : ∀ key positions, db.reindex.index.get? key = some positions →
      positions = db.records.findIdxs (Record.goesBy key) := by
    intro key positions h
    rw [get?_reindex] at h
    split at h
    · exact (Option.some.inj h).symm
    · cases h
  refine ⟨fun key => ?_, fun key positions h => ?_, fun key positions h position => ?_,
    fun key positions h position hmem => ?_, ?_, fun key => ?_⟩
  · rw [get?_reindex]
    change _ ↔ ∃ record ∈ db.records, _
    split <;> simp_all
  · rw [hpositions key positions h]
    exact List.pairwise_findIdxs
  · rw [hpositions key positions h, List.mem_findIdxs_iff_exists_getElem_pos]
    change _ ↔ ∃ record, db.records[position]? = _ ∧ _
    simp [List.getElem?_eq_some_iff]
  · rw [hpositions key positions h, List.mem_findIdxs_iff_exists_getElem_pos] at hmem
    exact hmem.1
  · have hnone : (Dict.empty : Dict (List Nat)).keys = ([] : List String).eraseDups := rfl
    exact keys_indexFrom db.records hnone 0
  · have hall := filterMap_findIdxs (Record.goesBy key) [] db.records
    rw [Database.lookup, get?_reindex]
    split
    next => exact hall
    next hnone =>
      rw [List.findIdxs_eq_nil_iff.mpr (by simpa using hnone)] at hall
      exact hall

end Database

end DocPipeline
