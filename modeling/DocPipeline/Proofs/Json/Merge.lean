import DocPipeline.Proofs.Json.Canonical

namespace DocPipeline.Json

variable {a b c value base overlay : Json} {key : String} {path : List String}

section Entries

variable {base overlay entries : List (String × Json)}

-- A value that was put over another at one of the keys is merged with it.
theorem lookup_mergeEntries (hd : (overlay.map Prod.fst).Nodup) (key : String) :
    lookup key (mergeEntries base overlay) = match lookup key overlay with
      | none => lookup key base
      | some value => some (match lookup key base with
        | some existing => merge existing value
        | none => value) := by
  induction overlay generalizing base with
  | nil => rfl
  | cons entry rest ih =>
    obtain ⟨k, v⟩ := entry
    obtain ⟨hfirst, hrest⟩ := List.nodup_cons.mp hd
    rw [mergeEntries, ih hrest, lookup_insert, lookup]
    by_cases hk : k = key
    · have hnone : lookup key rest = none := by
        rw [lookup_eq_none_iff]
        intro entry hentry he
        have hmem : entry.1 ∈ rest.map Prod.fst := List.mem_map_of_mem hentry
        rw [he, ← hk] at hmem
        exact hfirst hmem
      rw [hnone, if_pos hk, if_pos hk]
      subst hk
      cases lookup k base <;> rfl
    · simp only [if_neg hk]

theorem increasing_mergeEntries (h : Increasing base) :
    Increasing (mergeEntries base overlay) := by
  induction overlay generalizing base with
  | nil => exact h
  | cons entry rest ih => exact ih (increasing_insert h _ _)

theorem mem_keys_iff : key ∈ entries.map Prod.fst ↔ (lookup key entries).isSome := by
  rw [← not_iff_not, Option.not_isSome_iff_eq_none, lookup_eq_none_iff, List.mem_map]
  simp only [not_exists, not_and]

theorem mem_keys_mergeEntries (h : Increasing overlay) :
    key ∈ (mergeEntries base overlay).map Prod.fst ↔
      key ∈ overlay.map Prod.fst ∨ key ∈ base.map Prod.fst := by
  simp only [mem_keys_iff, lookup_mergeEntries h.nodup]
  cases lookup key overlay <;> simp

end Entries

def isObject : Json → Bool
  | object _ => true
  | _ => false

-- What a value holds at a path, if anything.
def at? : List String → Json → Option Json
  | [], value => some value
  | key :: path, value => (value.get? key).bind (at? path)

-- Something other than an object is held at the path.
def LeafAt (path : List String) (value : Json) : Prop :=
  ∃ leaf, value.at? path = some leaf ∧ leaf.isObject = false

def ObjectAt (path : List String) (value : Json) : Prop :=
  ∃ entries, value.at? path = some (object entries)

-- The path leads on from where something other than an object is held.
def BlockedAt (path : List String) (value : Json) : Prop :=
  ∃ before key after, path = before ++ key :: after ∧ value.LeafAt before

section Paths

theorem get?_of_leaf (h : value.isObject = false) (key : String) : value.get? key = none := by
  cases value <;> first | rfl | cases h

theorem eq_object_of_isObject (h : value.isObject = true) : ∃ entries, value = object entries := by
  cases value <;> first | exact ⟨_, rfl⟩ | cases h

theorem at?_cons_of_leaf (h : value.isObject = false) (key : String) (path : List String) :
    value.at? (key :: path) = none := by
  rw [at?, get?_of_leaf h, Option.bind_none]

theorem at?_append (before after : List String) (value : Json) :
    value.at? (before ++ after) = (value.at? before).bind (at? after) := by
  induction before generalizing value with
  | nil => rfl
  | cons key before ih =>
    rw [List.cons_append, at?, at?, Option.bind_assoc]
    exact congrArg _ (funext ih)

theorem not_objectAt_of_leaf (h : value.isObject = false) : ¬value.ObjectAt path := by
  rintro ⟨entries, hat⟩
  cases path with
  | nil =>
    cases hat
    cases h
  | cons key path =>
    rw [at?_cons_of_leaf h] at hat
    cases hat

-- Beyond what is no object nothing is held.
theorem at?_eq_none_of_not_objectAt (h : ¬value.ObjectAt path) (key : String)
    (after : List String) : value.at? (path ++ key :: after) = none := by
  rw [at?_append]
  cases hat : value.at? path with
  | none => rfl
  | some held =>
    rw [Option.bind_some]
    apply at?_cons_of_leaf
    by_contra hobject
    obtain ⟨entries, rfl⟩ := eq_object_of_isObject (Bool.eq_true_of_not_eq_false hobject)
    exact h ⟨entries, hat⟩

theorem blockedAt_cons : value.BlockedAt (key :: path) ↔
    value.isObject = false ∨ ∃ held, value.get? key = some held ∧ held.BlockedAt path := by
  constructor
  · rintro ⟨before, k, after, hpath, leaf, hat, hleaf⟩
    cases before with
    | nil =>
      obtain rfl := Option.some.inj hat
      exact .inl hleaf
    | cons first before =>
      obtain ⟨rfl, rfl⟩ := List.cons.inj hpath
      obtain ⟨held, hheld, hat⟩ := Option.bind_eq_some_iff.mp hat
      exact .inr ⟨held, hheld, before, k, after, rfl, leaf, hat, hleaf⟩
  · rintro (hleaf | ⟨held, hheld, before, k, after, rfl, leaf, hat, hleaf⟩)
    · exact ⟨[], key, path, rfl, value, rfl, hleaf⟩
    · exact ⟨key :: before, k, after, rfl, leaf, by rw [at?, hheld, Option.bind_some, hat], hleaf⟩

theorem at?_eq_none_of_blockedAt (h : value.BlockedAt path) : value.at? path = none := by
  obtain ⟨before, key, after, rfl, leaf, hat, hleaf⟩ := h
  rw [at?_append, hat, Option.bind_some, at?_cons_of_leaf hleaf]

theorem BlockedAt.longer {before after : List String} (h : value.BlockedAt before) :
    value.BlockedAt (before ++ after) := by
  obtain ⟨first, key, rest, rfl, hleaf⟩ := h
  exact ⟨first, key, rest ++ after, by rw [List.append_assoc, List.cons_append], hleaf⟩

theorem IsCanonical.of_get? {held : Json} (h : value.IsCanonical)
    (hk : value.get? key = some held) : held.IsCanonical := by
  cases h with
  | object _ hentries => exact hentries _ (mem_of_lookup hk)
  | _ => cases hk

theorem IsCanonical.of_at? {held : Json} (h : value.IsCanonical)
    (hat : value.at? path = some held) : held.IsCanonical := by
  induction path generalizing value with
  | nil =>
    obtain rfl := Option.some.inj hat
    exact h
  | cons key path ih =>
    obtain ⟨next, hnext, hat⟩ := Option.bind_eq_some_iff.mp hat
    exact ih (h.of_get? hnext) hat

end Paths

section Merge

theorem merge_of_leaf (a : Json) (h : b.isObject = false) : merge a b = b := by
  cases b <;> first | (cases a <;> rfl) | cases h

-- One step into an object that was merged over any value.
theorem get?_merge (a : Json) (hb : b.IsCanonical) (ho : b.isObject = true) (key : String) :
    (merge a b).get? key = match b.get? key with
      | none => a.get? key
      | some held => some (match a.get? key with
        | some existing => merge existing held
        | none => held) := by
  cases hb with
  | @object overlay hincreasing _ =>
    cases a with
    | object base => exact lookup_mergeEntries hincreasing.nodup key
    | _ =>
      change lookup key overlay = match lookup key overlay with
        | none => none
        | some held => some held
      cases lookup key overlay <;> rfl
  | _ => cases ho

-- What the overlay holds is merged with what the base holds there.
theorem at?_merge_of_some {held : Json} (hb : b.IsCanonical) (h : b.at? path = some held) :
    (merge a b).at? path = some (match a.at? path with
      | some existing => merge existing held
      | none => held) := by
  induction path generalizing a b with
  | nil =>
    obtain rfl := Option.some.inj h
    rfl
  | cons key path ih =>
    obtain ⟨next, hnext, h⟩ := Option.bind_eq_some_iff.mp h
    have ho : b.isObject = true := by
      by_contra hleaf
      rw [get?_of_leaf (Bool.eq_false_of_not_eq_true hleaf)] at hnext
      cases hnext
    simp only [at?, get?_merge a hb ho, hnext]
    cases a.get? key with
    | none => exact h
    | some existing => exact ih (hb.of_get? hnext) h

-- Where the overlay says nothing, the base shows through unless something stands in the way.
theorem at?_merge_of_none (hb : b.IsCanonical) (h : b.at? path = none) :
    (b.BlockedAt path → (merge a b).at? path = none) ∧
      (¬b.BlockedAt path → (merge a b).at? path = a.at? path) := by
  induction path generalizing a b with
  | nil => cases h
  | cons key path ih =>
    rw [blockedAt_cons]
    cases ho : b.isObject with
    | false =>
      rw [merge_of_leaf a ho]
      exact ⟨fun _ => h, fun hfree => absurd (.inl rfl) hfree⟩
    | true =>
      simp only [at?, get?_merge a hb ho] at h ⊢
      cases hget : b.get? key with
      | none => simp
      | some held =>
        rw [hget, Option.bind_some] at h
        cases hbase : a.get? key with
        | none => simpa using h
        | some existing => simpa using ih (a := existing) (hb.of_get? hget) h

end Merge

-- What is seen of a value without looking into it: all of it, unless it is an object.
def sight : Json → Option Json
  | object _ => none
  | leaf => some leaf

-- What is seen at the end of a path, if there is anything.
def sightAt (path : List String) (value : Json) : Option (Option Json) :=
  (value.at? path).map sight

section Sight

theorem sight_eq_none_iff : value.sight = none ↔ value.isObject = true := by
  cases value <;> simp [sight, isObject]

theorem sight_of_leaf (h : value.isObject = false) : value.sight = some value := by
  cases value <;> first | rfl | cases h

theorem sight_merge (a b : Json) : (merge a b).sight = b.sight := by
  cases b <;> cases a <;> rfl

theorem leafAt_iff : value.LeafAt path ↔ ∃ leaf, value.sightAt path = some (some leaf) := by
  simp only [LeafAt, sightAt, Option.map_eq_some_iff]
  constructor
  · rintro ⟨leaf, hat, hleaf⟩
    exact ⟨leaf, leaf, hat, sight_of_leaf hleaf⟩
  · rintro ⟨_, leaf, hat, hsight⟩
    refine ⟨leaf, hat, Bool.eq_false_of_not_eq_true fun ho => ?_⟩
    rw [sight_eq_none_iff.mpr ho] at hsight
    cases hsight

theorem objectAt_iff : value.ObjectAt path ↔ value.sightAt path = some none := by
  simp only [ObjectAt, sightAt, Option.map_eq_some_iff, sight_eq_none_iff]
  constructor
  · rintro ⟨entries, hat⟩
    exact ⟨_, hat, rfl⟩
  · rintro ⟨held, hat, ho⟩
    obtain ⟨entries, rfl⟩ := eq_object_of_isObject ho
    exact ⟨entries, hat⟩

-- Canonical values that look alike along all paths are the same.
theorem IsCanonical.ext (ha : a.IsCanonical) (hb : b.IsCanonical)
    (h : ∀ path, a.sightAt path = b.sightAt path) : a = b := by
  induction ha generalizing b with
  | @object entries hincreasing _ ih =>
    have hobject : b.isObject = true := sight_eq_none_iff.mp (Option.some.inj (h [])).symm
    cases hb with
    | @object others hothers hcanonical =>
      refine congrArg Json.object (hincreasing.ext hothers fun key => ?_)
      have hkey : ∀ path, ((lookup key entries).bind (at? path)).map sight =
          ((lookup key others).bind (at? path)).map sight := fun path => h (key :: path)
      cases hleft : lookup key entries with
      | none =>
        cases hright : lookup key others with
        | none => rfl
        | some other => simpa [hleft, hright, at?] using hkey []
      | some held =>
        cases hright : lookup key others with
        | none => simpa [hleft, hright, at?] using hkey []
        | some other =>
          have hsame : held = other := by
            apply ih _ (mem_of_lookup hleft) (hcanonical _ (mem_of_lookup hright))
            intro path
            simpa only [hleft, hright, Option.bind_some, sightAt] using hkey path
          rw [hsame]
    | _ => cases hobject
  | _ =>
    have hsight := (Option.some.inj (h [])).symm
    cases b <;> cases hsight
    rfl

end Sight

section Laws

-- What is seen of the overlay counts; else the base is seen, if nothing stands in the way.
theorem sightAt_merge_of_some {seen : Option Json} (hb : b.IsCanonical)
    (h : b.sightAt path = some seen) : (merge a b).sightAt path = some seen := by
  obtain ⟨held, hat, rfl⟩ := Option.map_eq_some_iff.mp h
  rw [sightAt, at?_merge_of_some hb hat, Option.map_some]
  cases a.at? path with
  | none => rfl
  | some existing => exact congrArg some (sight_merge existing held)

theorem sightAt_eq_none_iff : value.sightAt path = none ↔ value.at? path = none :=
  Option.map_eq_none_iff

theorem sightAt_merge_of_blocked (hb : b.IsCanonical) (h : b.BlockedAt path) :
    (merge a b).sightAt path = none :=
  sightAt_eq_none_iff.mpr ((at?_merge_of_none hb (at?_eq_none_of_blockedAt h)).1 h)

theorem sightAt_merge_of_silent (hb : b.IsCanonical) (h : b.sightAt path = none)
    (hfree : ¬b.BlockedAt path) : (merge a b).sightAt path = a.sightAt path := by
  rw [sightAt, (at?_merge_of_none hb (sightAt_eq_none_iff.mp h)).2 hfree, sightAt]

-- What stands in the way in the merged value stood there in one of both.
theorem blockedAt_of_merge (hb : b.IsCanonical) (h : (merge a b).BlockedAt path) :
    b.BlockedAt path ∨ a.BlockedAt path := by
  obtain ⟨before, key, after, rfl, hleaf⟩ := h
  obtain ⟨leaf, hseen⟩ := leafAt_iff.mp hleaf
  by_cases hfree : b.BlockedAt before
  · exact .inl hfree.longer
  cases hb' : b.sightAt before with
  | some seen =>
    have hsame := (sightAt_merge_of_some hb hb').symm.trans hseen
    exact .inl ⟨before, key, after, rfl, leafAt_iff.mpr ⟨leaf, hb'.trans hsame⟩⟩
  | none =>
    rw [sightAt_merge_of_silent hb hb' hfree] at hseen
    exact .inr ⟨before, key, after, rfl, leafAt_iff.mpr ⟨leaf, hseen⟩⟩

theorem blockedAt_merge_right (hb : b.IsCanonical) (h : b.BlockedAt path) :
    (merge a b).BlockedAt path := by
  obtain ⟨before, key, after, rfl, hleaf⟩ := h
  obtain ⟨leaf, hseen⟩ := leafAt_iff.mp hleaf
  exact ⟨before, key, after, rfl, leafAt_iff.mpr ⟨leaf, sightAt_merge_of_some hb hseen⟩⟩

theorem merge_self (ha : a.IsCanonical) : merge a a = a := by
  refine (ha.merge ha).ext ha fun path => ?_
  cases hseen : a.sightAt path with
  | some seen => exact sightAt_merge_of_some ha hseen
  | none =>
    by_cases hfree : a.BlockedAt path
    · exact sightAt_merge_of_blocked ha hfree
    · rw [sightAt_merge_of_silent ha hseen hfree, hseen]

theorem merge_merge_self (ha : a.IsCanonical) (hb : b.IsCanonical) :
    merge (merge a b) b = merge a b := by
  refine ((ha.merge hb).merge hb).ext (ha.merge hb) fun path => ?_
  cases hseen : b.sightAt path with
  | some seen => rw [sightAt_merge_of_some hb hseen, sightAt_merge_of_some hb hseen]
  | none =>
    by_cases hfree : b.BlockedAt path
    · rw [sightAt_merge_of_blocked hb hfree, sightAt_merge_of_blocked hb hfree]
    · exact sightAt_merge_of_silent hb hseen hfree

theorem merge_nil_left (hb : b.IsCanonical) : merge (object []) b = b := by
  cases hb with
  | object hincreasing _ => exact congrArg object (mergeEntries_nil_left hincreasing)
  | _ => rfl

-- A leaf of the middle value that no longer stands in the way was covered by an object of the last
-- one. Then the first one holds no object there, and nothing beyond.
theorem at?_eq_none_of_covered (hc : c.IsCanonical)
    (hmixed : ∀ path, ¬(a.ObjectAt path ∧ c.ObjectAt path ∧ b.LeafAt path))
    (hb : b.BlockedAt path) (hfree : ¬c.BlockedAt path) (hcovered : ¬(merge b c).BlockedAt path) :
    a.at? path = none := by
  obtain ⟨before, key, after, rfl, hleaf⟩ := hb
  have hfree' : ¬c.BlockedAt before := fun h => hfree h.longer
  apply at?_eq_none_of_not_objectAt
  intro hobject
  refine hmixed before ⟨hobject, objectAt_iff.mpr ?_, hleaf⟩
  obtain ⟨leaf, hseen⟩ := leafAt_iff.mp hleaf
  cases hlast : c.sightAt before with
  | none =>
    refine absurd ⟨before, key, after, rfl, leafAt_iff.mpr ⟨leaf, ?_⟩⟩ hcovered
    rw [sightAt_merge_of_silent hc hlast hfree', hseen]
  | some seen =>
    cases seen with
    | none => rfl
    | some other =>
      exact absurd ⟨before, key, after, rfl, leafAt_iff.mpr ⟨other, hlast⟩⟩ hfree

theorem merge_merge (ha : a.IsCanonical) (hb : b.IsCanonical) (hc : c.IsCanonical)
    (hmixed : ∀ path, ¬(a.ObjectAt path ∧ c.ObjectAt path ∧ b.LeafAt path)) :
    merge (merge a b) c = merge a (merge b c) := by
  have hbc := hb.merge hc
  refine ((ha.merge hb).merge hc).ext (ha.merge hbc) fun path => ?_
  cases hlast : c.sightAt path with
  | some seen =>
    rw [sightAt_merge_of_some hc hlast, sightAt_merge_of_some hbc (sightAt_merge_of_some hc hlast)]
  | none =>
    by_cases hfree : c.BlockedAt path
    · rw [sightAt_merge_of_blocked hc hfree,
        sightAt_merge_of_blocked hbc (blockedAt_merge_right hc hfree)]
    · have hmiddle := sightAt_merge_of_silent (a := b) hc hlast hfree
      rw [sightAt_merge_of_silent hc hlast hfree]
      cases hseen : b.sightAt path with
      | some seen =>
        rw [sightAt_merge_of_some hb hseen, sightAt_merge_of_some hbc (hmiddle.trans hseen)]
      | none =>
        rw [hseen] at hmiddle
        by_cases hway : (merge b c).BlockedAt path
        · have hway' := (blockedAt_of_merge hc hway).resolve_left hfree
          rw [sightAt_merge_of_blocked hbc hway, sightAt_merge_of_blocked hb hway']
        · rw [sightAt_merge_of_silent hbc hmiddle hway]
          by_cases hway' : b.BlockedAt path
          · rw [sightAt_merge_of_blocked hb hway', sightAt_eq_none_iff.mpr
              (at?_eq_none_of_covered hc hmixed hway' hfree hway)]
          · exact sightAt_merge_of_silent hb hseen hway'

-- The keys of an object that was merged over what the base holds.
theorem keys_merge_object {own : List (String × Json)} (h : Increasing own)
    (existing : Option Json) : ∃ merged,
      (match existing with
        | some existing => merge existing (object own)
        | none => object own) = object merged ∧
      ∀ key, key ∈ merged.map Prod.fst ↔ key ∈ own.map Prod.fst ∨
        ∃ entries, existing = some (object entries) ∧ key ∈ entries.map Prod.fst := by
  rcases existing with _ | existing
  · exact ⟨own, rfl, by simp⟩
  · cases existing with
    | object entries =>
      refine ⟨mergeEntries entries own, rfl, fun key => ?_⟩
      simp [mem_keys_mergeEntries h]
    | _ => exact ⟨own, rfl, by simp⟩

-- Along every path of keys: what is no object in the overlay replaces whatever there was, and
-- nothing is held beyond it; where the overlay says nothing, the base is left as it is; and an
-- object of the overlay takes in the keys of an object of the base. So the empty object changes
-- nothing, merging again changes nothing, and the order in which three values are merged does not
-- matter, unless the middle one has something other than an object where both others have objects.
theorem merge_along_paths (ha : a.IsCanonical) (hb : b.IsCanonical) (ho : a.isObject = true) :
    (∀ path,
      (∀ leaf, b.at? path = some leaf → leaf.isObject = false →
        (merge a b).at? path = some leaf) ∧
      (b.BlockedAt path → (merge a b).at? path = none) ∧
      (b.at? path = none → ¬b.BlockedAt path → (merge a b).at? path = a.at? path) ∧
      ∀ own, b.at? path = some (object own) → ∃ merged,
        (merge a b).at? path = some (object merged) ∧
        ∀ key, key ∈ merged.map Prod.fst ↔ key ∈ own.map Prod.fst ∨
          ∃ entries, a.at? path = some (object entries) ∧ key ∈ entries.map Prod.fst) ∧
    merge (object []) b = b ∧ merge a (object []) = a ∧ merge a a = a ∧
    merge (merge a b) b = merge a b ∧
    ∀ c : Json, c.IsCanonical →
      (∀ path, ¬(a.ObjectAt path ∧ c.ObjectAt path ∧ b.LeafAt path)) →
      merge (merge a b) c = merge a (merge b c) := by
  refine ⟨fun path => ⟨fun leaf hat hleaf => ?_, fun hblocked => ?_, fun hat hfree => ?_,
    fun own hat => ?_⟩, merge_nil_left hb, ?_, merge_self ha, merge_merge_self ha hb,
    fun c hc hmixed => merge_merge ha hb hc hmixed⟩
  · rw [at?_merge_of_some hb hat]
    cases a.at? path with
    | none => rfl
    | some existing => exact congrArg some (merge_of_leaf existing hleaf)
  · exact (at?_merge_of_none hb (at?_eq_none_of_blockedAt hblocked)).1 hblocked
  · exact (at?_merge_of_none hb hat).2 hfree
  · have hown : Increasing own := by
      have hcanonical := hb.of_at? hat
      cases hcanonical with
      | object hincreasing _ => exact hincreasing
    obtain ⟨merged, hmerged, hkeys⟩ := keys_merge_object hown (a.at? path)
    rw [at?_merge_of_some hb hat, hmerged]
    exact ⟨merged, rfl, hkeys⟩
  · obtain ⟨entries, rfl⟩ := eq_object_of_isObject ho
    rfl

-- Where the middle value has a leaf and both others have objects, the order matters.
example : (merge (merge (object [("k", object [("x", null)])]) (object [("k", null)]))
      (object [("k", object [("y", null)])])).at? ["k", "x"] = none ∧
    (merge (object [("k", object [("x", null)])]) (merge (object [("k", null)])
      (object [("k", object [("y", null)])]))).at? ["k", "x"] = some null :=
  ⟨rfl, rfl⟩

-- Three layers of a configuration. The middle one has a leaf where the last one has an object, and
-- the first one has none.
def plainLayer : Json :=
  .object [("theme", .object [("color", .string "red"), ("size", .nat 1)]), ("title", .string "A")]

def themedLayer : Json := .object [("theme", .object [("size", .nat 2)]), ("title", .null)]

def titledLayer : Json :=
  .object [("theme", .object [("font", .string "mono")]), ("title", .object [("text", .nat 3)])]

theorem layers_unmixed (path : List String) : ¬(plainLayer.ObjectAt path ∧
    titledLayer.ObjectAt path ∧ themedLayer.LeafAt path) := by
  rintro ⟨⟨entries, hobject⟩, -, leaf, hat, hleaf⟩
  -- The first layer has objects at its top and under the theme, and so has the middle one.
  cases path with
  | nil =>
    cases hat
    cases hleaf
  | cons key path =>
    obtain ⟨held, hheld, hobject⟩ := Option.bind_eq_some_iff.mp hobject
    simp only [plainLayer, get?, lookup] at hheld
    split at hheld
    next htheme =>
      subst htheme
      cases hheld
      cases path with
      | nil =>
        cases hat
        cases hleaf
      | cons key path =>
        obtain ⟨held, hheld, hobject⟩ := Option.bind_eq_some_iff.mp hobject
        have hinner : held.isObject = false := by
          simp only [get?, lookup] at hheld
          split at hheld
          · cases hheld
            rfl
          · split at hheld <;> cases hheld
            rfl
        exact not_objectAt_of_leaf hinner ⟨entries, hobject⟩
    next =>
      split at hheld <;> cases hheld
      exact not_objectAt_of_leaf rfl ⟨entries, hobject⟩

theorem layers_merged : plainLayer.IsCanonical ∧ themedLayer.IsCanonical ∧
    titledLayer.IsCanonical ∧
    (merge plainLayer themedLayer).at? ["theme", "color"] = some (.string "red") ∧
    (merge plainLayer themedLayer).at? ["title"] = some .null ∧
    merge (merge plainLayer themedLayer) titledLayer =
      merge plainLayer (merge themedLayer titledLayer) := by
  have hplain : plainLayer.IsCanonical := isCanonical_iff.mpr rfl
  have hthemed : themedLayer.IsCanonical := isCanonical_iff.mpr rfl
  have htitled : titledLayer.IsCanonical := isCanonical_iff.mpr rfl
  obtain ⟨hpath, -, -, -, -, hlayers⟩ := merge_along_paths hplain hthemed rfl
  refine ⟨hplain, hthemed, htitled, ?_, (hpath ["title"]).1 _ rfl rfl,
    hlayers _ htitled layers_unmixed⟩
  refine (hpath ["theme", "color"]).2.2.1 rfl ?_
  rw [blockedAt_cons]
  rintro (hleaf | ⟨held, hheld, hblocked⟩)
  · cases hleaf
  · cases hheld
    obtain hleaf | ⟨held, hheld, -⟩ := blockedAt_cons.mp hblocked
    · cases hleaf
    · cases hheld

end Laws

end DocPipeline.Json
