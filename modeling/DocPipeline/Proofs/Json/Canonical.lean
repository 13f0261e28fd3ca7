import DocPipeline.Json.Merge
import Mathlib.Data.String.Basic

namespace DocPipeline.Json

variable {key other : String} {value : Json} {entries : List (String × Json)}

-- What was written item by item is read item by item.
theorem mapM_map_eq_some {α β γ : Type} {read? : β → Option γ} {write : α → β} {reread : α → γ}
    {values : List α} (h : ∀ value ∈ values, read? (write value) = some (reread value)) :
    (values.map write).mapM read? = some (values.map reread) := by
  induction values with
  | nil => rfl
  | cons value rest ih =>
    have hrest := ih fun value hvalue => h value (List.mem_cons_of_mem _ hvalue)
    rw [List.map_cons, List.mapM_cons, h value List.mem_cons_self, hrest]
    rfl

theorem mapM_eq_some_of_mem {α β : Type} {read? : β → Option α} {write : α → β}
    {values : List α} (h : ∀ value ∈ values, read? (write value) = some value) :
    (values.map write).mapM read? = some values :=
  (mapM_map_eq_some h).trans (congrArg some values.map_id)

section Lookup

theorem mem_of_lookup (h : lookup key entries = some value) : (key, value) ∈ entries := by
  induction entries with
  | nil => cases h
  | cons entry rest ih =>
    obtain ⟨k, v⟩ := entry
    by_cases hk : k = key
    · rw [lookup, if_pos hk] at h
      obtain rfl := Option.some.inj h
      rw [hk]
      exact List.mem_cons_self
    · rw [lookup, if_neg hk] at h
      exact List.mem_cons_of_mem _ (ih h)

theorem lookup_eq_none_iff : lookup key entries = none ↔ ∀ entry ∈ entries, entry.1 ≠ key := by
  induction entries with
  | nil => simp [lookup]
  | cons entry rest ih =>
    obtain ⟨k, v⟩ := entry
    by_cases hk : k = key
    · simp [lookup, hk]
    · simp [lookup, hk, ih]

theorem lookup_append (key : String) (entries more : List (String × Json)) :
    lookup key (entries ++ more) = (lookup key entries).or (lookup key more) := by
  induction entries with
  | nil => rfl
  | cons entry rest ih =>
    obtain ⟨k, v⟩ := entry
    by_cases hk : k = key
    · simp [lookup, hk]
    · simp [lookup, hk, ih]

theorem lookup_map (change : Json → Json) (key : String) (entries : List (String × Json)) :
    lookup key (entries.map fun entry => (entry.1, change entry.2)) =
      (lookup key entries).map change := by
  induction entries with
  | nil => rfl
  | cons entry rest ih =>
    obtain ⟨k, v⟩ := entry
    by_cases hk : k = key
    · simp [lookup, hk]
    · simp [lookup, hk, ih]

-- Only whole keys are taken away.
theorem lookup_filter (keep : String → Bool) (key : String) (entries : List (String × Json)) :
    lookup key (entries.filter fun entry => keep entry.1) =
      if keep key then lookup key entries else none := by
  induction entries with
  | nil => simp [lookup]
  | cons entry rest ih =>
    obtain ⟨k, v⟩ := entry
    by_cases hk : k = key
    · subst hk
      cases hkeep : keep k <;> simp [lookup, hkeep, ih]
    · cases hkeep : keep k <;> simp [lookup, hk, hkeep, ih]

theorem lookup_erase (key other : String) (entries : List (String × Json)) :
    lookup other (erase key entries) = if other ≠ key then lookup other entries else none := by
  have h := lookup_filter (fun k => decide (k ≠ key)) other entries
  simpa [erase] using h

theorem lookup_insert (key other : String) (value : Json) (entries : List (String × Json)) :
    lookup other (insert key value entries) =
      if key = other then some value else lookup other entries := by
  induction entries with
  | nil => rfl
  | cons entry rest ih =>
    obtain ⟨k, v⟩ := entry
    rw [insert]
    split
    next heq => by_cases hk : key = other <;> simp [lookup, ← heq, hk]
    next hne =>
      split
      · by_cases hk : key = other <;> simp [lookup, hk]
      · by_cases hk : k = other
        · subst hk
          simp [lookup, hne]
        · simp [lookup, hk, ih]

theorem mem_insert {entry : String × Json} (h : entry ∈ insert key value entries) :
    entry = (key, value) ∨ entry ∈ entries := by
  induction entries with
  | nil => exact .inl (List.mem_singleton.mp h)
  | cons first rest ih =>
    obtain ⟨k, v⟩ := first
    rw [insert] at h
    split at h
    · rcases List.mem_cons.mp h with h | h
      · exact .inl h
      · exact .inr (List.mem_cons_of_mem _ h)
    · split at h
      · exact List.mem_cons.mp h
      · rcases List.mem_cons.mp h with h | h
        · exact .inr (h ▸ List.mem_cons_self)
        · exact (ih h).imp id (List.mem_cons_of_mem _)

-- What is found among sorted entries is the last of what there was.
theorem lookup_foldl_insert (key : String) (entries kept : List (String × Json)) :
    lookup key (entries.foldl (fun kept entry => insert entry.1 entry.2 kept) kept) =
      (lookup key entries.reverse).or (lookup key kept) := by
  induction entries generalizing kept with
  | nil => rfl
  | cons entry rest ih =>
    rw [List.foldl_cons, ih, List.reverse_cons, lookup_append, Option.or_assoc, lookup_insert]
    by_cases hk : entry.1 = key <;> simp [lookup, hk]

theorem lookup_sortEntries (key : String) (entries : List (String × Json)) :
    lookup key (sortEntries entries) = lookup key entries.reverse := by
  have h := lookup_foldl_insert key entries []
  rwa [lookup, Option.or_none] at h

theorem lookup_of_mem (hd : (entries.map Prod.fst).Nodup) (h : (key, value) ∈ entries) :
    lookup key entries = some value := by
  induction entries with
  | nil => cases h
  | cons entry rest ih =>
    obtain ⟨hfirst, hrest⟩ := List.nodup_cons.mp hd
    rcases List.mem_cons.mp h with rfl | h
    · rw [lookup, if_pos rfl]
    · have hk : entry.1 ≠ key := fun he => hfirst (he ▸ List.mem_map_of_mem h)
      rw [lookup, if_neg hk, ih hrest h]

-- Where no key is repeated, the order of the entries does not matter.
theorem lookup_perm {more : List (String × Json)} (hd : (entries.map Prod.fst).Nodup)
    (hp : more.Perm entries) (key : String) : lookup key more = lookup key entries := by
  cases hmore : lookup key more with
  | some value => exact (lookup_of_mem hd (hp.mem_iff.mp (mem_of_lookup hmore))).symm
  | none =>
    rw [lookup_eq_none_iff] at hmore
    exact (lookup_eq_none_iff.mpr fun entry hentry => hmore entry (hp.mem_iff.mpr hentry)).symm

theorem lookup_sorted (hd : (entries.map Prod.fst).Nodup) (key : String) :
    lookup key (sortEntries entries) = lookup key entries := by
  rw [lookup_sortEntries, lookup_perm hd (List.reverse_perm entries)]

end Lookup

-- The keys increase strictly.
def Increasing (entries : List (String × Json)) : Prop :=
  entries.Pairwise fun entry later => entry.1 < later.1

section Increasing

variable {more : List (String × Json)}

theorem Increasing.filter (h : Increasing entries) (keep : String × Json → Bool) :
    Increasing (entries.filter keep) := List.Pairwise.filter keep h

theorem Increasing.erase (h : Increasing entries) (key : String) :
    Increasing (Json.erase key entries) := h.filter _

theorem Increasing.nodup (h : Increasing entries) : (entries.map Prod.fst).Nodup := by
  rw [List.Nodup, List.pairwise_map]
  exact h.imp fun hlt => ne_of_lt hlt

theorem increasing_insert (h : Increasing entries) (key : String) (value : Json) :
    Increasing (insert key value entries) := by
  induction entries with
  | nil => exact List.pairwise_singleton _ _
  | cons entry rest ih =>
    obtain ⟨k, v⟩ := entry
    obtain ⟨hfirst, hrest⟩ := List.pairwise_cons.mp h
    rw [insert]
    split
    next heq => exact List.pairwise_cons.mpr ⟨heq ▸ hfirst, hrest⟩
    next hne =>
      split
      next hlt =>
        refine List.pairwise_cons.mpr ⟨fun later hlater => ?_, h⟩
        rcases List.mem_cons.mp hlater with rfl | hlater
        · exact hlt
        · exact String.lt_trans hlt (hfirst later hlater)
      next hnlt =>
        refine List.pairwise_cons.mpr ⟨fun later hlater => ?_, ih hrest⟩
        rcases mem_insert hlater with rfl | hlater
        · exact lt_of_le_of_ne (String.not_lt.mp hnlt) (Ne.symm hne)
        · exact hfirst later hlater

theorem increasing_sortEntries (entries : List (String × Json)) :
    Increasing (sortEntries entries) := by
  have hfold : ∀ kept, Increasing kept →
      Increasing (entries.foldl (fun kept entry => insert entry.1 entry.2 kept) kept) := by
    induction entries with
    | nil => exact fun _ h => h
    | cons entry rest ih => exact fun kept h => ih _ (increasing_insert h _ _)
  exact hfold [] List.Pairwise.nil

theorem Increasing.lookup_eq_none_of_le {first : String × Json}
    (h : Increasing (first :: entries)) (hk : key ≤ first.1) : lookup key entries = none := by
  rw [lookup_eq_none_iff]
  intro entry hentry he
  have hlt := (List.pairwise_cons.mp h).1 entry hentry
  exact String.not_lt.mpr hk (he ▸ hlt)

-- Entries that increase are determined by what is found in them.
theorem Increasing.ext (h : Increasing entries) (hm : Increasing more)
    (heq : ∀ key, lookup key entries = lookup key more) : entries = more := by
  induction entries generalizing more with
  | nil =>
    cases more with
    | nil => rfl
    | cons entry rest => simpa [lookup] using heq entry.1
  | cons entry rest ih =>
    obtain ⟨k, v⟩ := entry
    cases more with
    | nil => simpa [lookup] using heq k
    | cons entry' rest' =>
      obtain ⟨k', v'⟩ := entry'
      have hk : k = k' := by
        by_contra hne
        have hat := heq k
        have hat' := heq k'
        rw [lookup, if_pos rfl, lookup, if_neg (Ne.symm hne)] at hat
        rw [lookup, if_neg hne, lookup, if_pos rfl] at hat'
        rcases le_total k k' with hle | hle
        · rw [hm.lookup_eq_none_of_le hle] at hat
          cases hat
        · rw [h.lookup_eq_none_of_le hle] at hat'
          cases hat'
      subst hk
      have hv : v = v' := by simpa [lookup] using heq k
      subst hv
      have hrest : ∀ key, lookup key rest = lookup key rest' := by
        intro key
        by_cases hkey : k = key
        · subst hkey
          rw [h.lookup_eq_none_of_le le_rfl, hm.lookup_eq_none_of_le le_rfl]
        · have hat := heq key
          rwa [lookup, if_neg hkey, lookup, if_neg hkey] at hat
      rw [ih (List.pairwise_cons.mp h).2 (List.pairwise_cons.mp hm).2 hrest]

theorem Increasing.sortEntries_eq (h : Increasing entries) : sortEntries entries = entries := by
  refine (increasing_sortEntries entries).ext h fun key => ?_
  rw [lookup_sorted h.nodup]

theorem filter_sortEntries (hd : (entries.map Prod.fst).Nodup) (keep : String → Bool) :
    (sortEntries entries).filter (fun entry => keep entry.1) =
      sortEntries (entries.filter fun entry => keep entry.1) := by
  have hkept : ((entries.filter fun entry => keep entry.1).map Prod.fst).Nodup :=
    hd.sublist ((List.filter_sublist).map _)
  refine ((increasing_sortEntries _).filter _).ext (increasing_sortEntries _) fun key => ?_
  rw [lookup_filter, lookup_sorted hd, lookup_sorted hkept, lookup_filter]

theorem mem_sortEntries {entry : String × Json} (h : entry ∈ sortEntries entries) :
    entry ∈ entries := by
  have hfold : ∀ kept, entry ∈ entries.foldl (fun kept entry => insert entry.1 entry.2 kept) kept →
      entry ∈ entries ∨ entry ∈ kept := by
    clear h
    induction entries with
    | nil => exact fun _ h => .inr h
    | cons first rest ih =>
      intro kept h
      rcases ih _ h with h | h
      · exact .inl (List.mem_cons_of_mem _ h)
      · rcases mem_insert h with rfl | h
        · exact .inl List.mem_cons_self
        · exact .inr h
  rcases hfold [] h with h | h
  · exact h
  · cases h

end Increasing

-- All objects in the value have increasing keys.
inductive IsCanonical : Json → Prop where
  | null : IsCanonical null
  | bool (value : Bool) : IsCanonical (bool value)
  | number (value : Number) : IsCanonical (number value)
  | string (value : String) : IsCanonical (string value)
  | array {items : List Json} (h : ∀ item ∈ items, IsCanonical item) : IsCanonical (array items)
  | object {entries : List (String × Json)} (increasing : Increasing entries)
      (h : ∀ entry ∈ entries, IsCanonical entry.2) : IsCanonical (object entries)

theorem IsCanonical.increasing (h : (Json.object entries).IsCanonical) : Increasing entries := by
  cases h with
  | object hincreasing _ => exact hincreasing

theorem canonicalItems_eq_map (items : List Json) : canonicalItems items = items.map canonical := by
  induction items with
  | nil => rfl
  | cons item rest ih => rw [canonicalItems, ih, List.map_cons]

theorem canonicalEntries_eq_map (entries : List (String × Json)) :
    canonicalEntries entries = entries.map fun entry => (entry.1, entry.2.canonical) := by
  induction entries with
  | nil => rfl
  | cons entry rest ih => rw [canonicalEntries, ih, List.map_cons]

-- In the canonical form of an object with distinct keys is found what was written there.
theorem lookup_canonical (hd : (entries.map Prod.fst).Nodup) (key : String) :
    lookup key (sortEntries (canonicalEntries entries)) = (lookup key entries).map canonical := by
  have hkeys : ((canonicalEntries entries).map Prod.fst).Nodup := by
    rw [canonicalEntries_eq_map, List.map_map]
    exact hd
  rw [lookup_sorted hkeys, canonicalEntries_eq_map, lookup_map]

mutual

theorem isCanonical_canonical : ∀ value : Json, value.canonical.IsCanonical
  | .null => .null
  | .bool value => .bool value
  | .number value => .number value
  | .string value => .string value
  | .array items => .array (isCanonical_canonicalItems items)
  | .object entries => .object (increasing_sortEntries _) fun entry hentry =>
    isCanonical_canonicalEntries entries entry (mem_sortEntries hentry)

theorem isCanonical_canonicalItems :
    ∀ items : List Json, ∀ item ∈ canonicalItems items, item.IsCanonical
  | [], _, h => nomatch h
  | first :: rest, item, h => by
    rcases List.mem_cons.mp h with rfl | h
    · exact isCanonical_canonical first
    · exact isCanonical_canonicalItems rest item h

theorem isCanonical_canonicalEntries :
    ∀ entries : List (String × Json), ∀ entry ∈ canonicalEntries entries, entry.2.IsCanonical
  | [], _, h => nomatch h
  | (key, value) :: rest, entry, h => by
    rcases List.mem_cons.mp h with rfl | h
    · exact isCanonical_canonical value
    · exact isCanonical_canonicalEntries rest entry h

end

theorem IsCanonical.canonical_eq (h : value.IsCanonical) : value.canonical = value := by
  induction h with
  | array _ ih =>
    rw [canonical, canonicalItems_eq_map, List.map_congr_left ih, List.map_id']
  | object hincreasing _ ih =>
    rw [canonical, canonicalEntries_eq_map,
      List.map_congr_left fun entry hentry => congrArg (Prod.mk entry.1) (ih entry hentry),
      List.map_id', hincreasing.sortEntries_eq]
  | _ => rfl

theorem canonicalEntries_of_isCanonical (h : ∀ entry ∈ entries, entry.2.IsCanonical) :
    canonicalEntries entries = entries := by
  rw [canonicalEntries_eq_map,
    List.map_congr_left fun entry he => congrArg (Prod.mk entry.1) (h entry he).canonical_eq,
    List.map_id']

theorem isCanonical_iff : value.IsCanonical ↔ value.canonical = value :=
  ⟨IsCanonical.canonical_eq, fun h => h ▸ isCanonical_canonical value⟩

section Merge

theorem insert_of_lt (h : ∀ entry ∈ entries, entry.1 < key) :
    insert key value entries = entries ++ [(key, value)] := by
  induction entries with
  | nil => rfl
  | cons entry rest ih =>
    obtain ⟨k, v⟩ := entry
    have hlt : k < key := h _ List.mem_cons_self
    have hne : key ≠ k := fun he => String.lt_irrefl k (he ▸ hlt)
    rw [insert, if_neg hne, if_neg (String.lt_asymm hlt),
      ih fun entry hentry => h entry (List.mem_cons_of_mem _ hentry), List.cons_append]

-- Entries that come after all others are added as they are.
theorem mergeEntries_append {more : List (String × Json)} (h : Increasing (entries ++ more)) :
    mergeEntries entries more = entries ++ more := by
  induction more generalizing entries with
  | nil => rw [mergeEntries, List.append_nil]
  | cons entry rest ih =>
    obtain ⟨k, v⟩ := entry
    have hlt : ∀ entry ∈ entries, entry.1 < k := fun entry hentry =>
      (List.pairwise_append.mp h).2.2 entry hentry _ List.mem_cons_self
    have hnone : lookup k entries = none := by
      rw [lookup_eq_none_iff]
      exact fun entry hentry he => String.lt_irrefl k (he ▸ hlt entry hentry)
    rw [List.append_cons] at h ⊢
    rw [mergeEntries, hnone, insert_of_lt hlt]
    exact ih h

theorem mergeEntries_nil_left (h : Increasing entries) : mergeEntries [] entries = entries :=
  mergeEntries_append h

-- A key of the merged entries is a key of one of both.
theorem lookup_mergeEntries_eq_none {base overlay : List (String × Json)}
    (hb : lookup key base = none) (ho : lookup key overlay = none) :
    lookup key (mergeEntries base overlay) = none := by
  induction overlay generalizing base with
  | nil => exact hb
  | cons entry rest ih =>
    obtain ⟨k, v⟩ := entry
    by_cases hk : k = key
    · rw [lookup, if_pos hk] at ho
      cases ho
    · rw [lookup, if_neg hk] at ho
      rw [mergeEntries]
      exact ih (by rw [lookup_insert, if_neg hk, hb]) ho

mutual

theorem IsCanonical.merge {base : Json} (hb : base.IsCanonical) :
    ∀ {overlay : Json}, overlay.IsCanonical → (merge base overlay).IsCanonical
  | .object overlay, .object hover hoverlay => by
    cases hb with
    | object hincreasing hbase =>
      obtain ⟨hmerged, hvalues⟩ := isCanonical_mergeEntries overlay hoverlay hincreasing hbase
      exact .object hmerged hvalues
    | _ => exact .object hover hoverlay
  | .null, ho => by cases base <;> exact ho
  | .bool _, ho => by cases base <;> exact ho
  | .number _, ho => by cases base <;> exact ho
  | .string _, ho => by cases base <;> exact ho
  | .array _, ho => by cases base <;> exact ho

theorem isCanonical_mergeEntries :
    ∀ (overlay : List (String × Json)) (_ : ∀ entry ∈ overlay, entry.2.IsCanonical)
      {base : List (String × Json)} (_ : Increasing base)
      (_ : ∀ entry ∈ base, entry.2.IsCanonical),
      Increasing (mergeEntries base overlay) ∧
        ∀ entry ∈ mergeEntries base overlay, entry.2.IsCanonical
  | [], _, _, hincreasing, hbase => ⟨hincreasing, hbase⟩
  | (key, value) :: rest, hoverlay, base, hincreasing, hbase => by
    have hvalue : value.IsCanonical := hoverlay _ List.mem_cons_self
    rw [mergeEntries]
    apply isCanonical_mergeEntries rest
      (fun entry hentry => hoverlay entry (List.mem_cons_of_mem _ hentry))
      (increasing_insert hincreasing _ _)
    intro entry hentry
    rcases mem_insert hentry with rfl | hentry
    · cases hl : lookup key base with
      | none => exact hvalue
      | some existing => exact IsCanonical.merge (hbase _ (mem_of_lookup hl)) hvalue
    · exact hbase entry hentry

end

end Merge

end DocPipeline.Json
