import DocPipeline.Json.Reader
import DocPipeline.Json.Printer
import DocPipeline.Proofs.Json.Canonical

namespace DocPipeline.Json

-- White space, which may stand between the parts of a value.
def IsGap (gap : List Char) : Prop := ∀ c ∈ gap, c = ' ' ∨ c = '\n' ∨ c = '\t' ∨ c = '\r'

theorem isGap_nil : IsGap [] := nofun

theorem isGap_blank : IsGap [' '] := by simp [IsGap]

-- An integer that is a number here.
def InRange (n : Int) : Prop := -0x8000000000000000 ≤ n ∧ n ≤ maxSignificand

mutual

-- How many arrays and objects a part of the value stands in at most.
def depth : Json → Nat
  | array items => depthItems items + 1
  | object entries => depthEntries entries + 1
  | _ => 0

def depthItems : List Json → Nat
  | [] => 0
  | item :: rest => max (depth item) (depthItems rest)

def depthEntries : List (String × Json) → Nat
  | [] => 0
  | (_, value) :: rest => max (depth value) (depthEntries rest)

end

mutual

-- All numbers in the value are integers of 64 bits.
def Integral : Json → Prop
  | number (.integer n) => InRange n
  | number (.double _) => False
  | array items => IntegralItems items
  | object entries => IntegralEntries entries
  | _ => True

def IntegralItems : List Json → Prop
  | [] => True
  | item :: rest => Integral item ∧ IntegralItems rest

def IntegralEntries : List (String × Json) → Prop
  | [] => True
  | (_, value) :: rest => Integral value ∧ IntegralEntries rest

end

theorem depthItems_le_iff {n : Nat} {items : List Json} :
    depthItems items ≤ n ↔ ∀ item ∈ items, depth item ≤ n := by
  induction items with
  | nil => simp [depthItems]
  | cons item rest ih => rw [depthItems, max_le_iff, ih, List.forall_mem_cons]

theorem depthEntries_le_iff {n : Nat} {entries : List (String × Json)} :
    depthEntries entries ≤ n ↔ ∀ entry ∈ entries, depth entry.2 ≤ n := by
  induction entries with
  | nil => simp [depthEntries]
  | cons entry rest ih => rw [depthEntries, max_le_iff, ih, List.forall_mem_cons]

theorem integralItems_iff {items : List Json} :
    IntegralItems items ↔ ∀ item ∈ items, Integral item := by
  induction items with
  | nil => simp [IntegralItems]
  | cons item rest ih => rw [IntegralItems, ih, List.forall_mem_cons]

mutual

-- Putting entries in order drops some and deepens none.
theorem depth_canonical_le : ∀ value : Json, value.canonical.depth ≤ value.depth
  | .null => le_rfl
  | .bool _ => le_rfl
  | .number _ => le_rfl
  | .string _ => le_rfl
  | .array items => by
    have h := depth_canonicalItems_le items
    exact Nat.succ_le_succ (depthItems_le_iff.mpr h)
  | .object entries => by
    have h := depth_canonicalEntries_le entries
    exact Nat.succ_le_succ (depthEntries_le_iff.mpr fun entry he => h entry (mem_sortEntries he))

theorem depth_canonicalItems_le :
    ∀ items : List Json, ∀ item ∈ canonicalItems items, item.depth ≤ depthItems items
  | [], _, h => nomatch h
  | first :: rest, item, h => by
    rcases List.mem_cons.mp h with rfl | h
    · exact le_max_of_le_left (depth_canonical_le first)
    · exact le_max_of_le_right (depth_canonicalItems_le rest item h)

theorem depth_canonicalEntries_le : ∀ entries : List (String × Json),
    ∀ entry ∈ canonicalEntries entries, entry.2.depth ≤ depthEntries entries
  | [], _, h => nomatch h
  | (_, value) :: rest, entry, h => by
    rcases List.mem_cons.mp h with rfl | h
    · exact le_max_of_le_left (depth_canonical_le value)
    · exact le_max_of_le_right (depth_canonicalEntries_le rest entry h)

end

mutual

-- The texts of a value, however its parts are set apart.
inductive Written : Json → List Char → Prop where
  | null : Written null (scalarText null)
  | bool (value : Bool) : Written (bool value) (scalarText (bool value))
  | number (value : Number) : Written (number value) (scalarText (number value))
  | string (value : String) : Written (string value) (scalarText (string value))
  | array {items : List Json} {text : List Char} (h : WrittenItems items text) :
      Written (array items) ('[' :: text)
  | object {entries : List (String × Json)} {text : List Char} (h : WrittenEntries entries text) :
      Written (object entries) ('{' :: text)

-- What follows the opening bracket. Entries are set apart by one comma, with none after the last.
inductive WrittenItems : List Json → List Char → Prop where
  | nil : WrittenItems [] [']']
  | last {item : Json} {gap text close : List Char} (hgap : IsGap gap) (h : Written item text)
      (hclose : IsGap close) : WrittenItems [item] (gap ++ text ++ close ++ [']'])
  | cons {item next : Json} {rest : List Json} {gap text more : List Char} (hgap : IsGap gap)
      (h : Written item text) (hmore : WrittenItems (next :: rest) more) :
      WrittenItems (item :: next :: rest) (gap ++ text ++ ',' :: more)

inductive WrittenEntries : List (String × Json) → List Char → Prop where
  | nil : WrittenEntries [] ['}']
  | last {key : String} {value : Json} {gap between text close : List Char} (hgap : IsGap gap)
      (hbetween : IsGap between) (h : Written value text) (hclose : IsGap close) :
      WrittenEntries [(key, value)]
        (gap ++ quoted key ++ ':' :: (between ++ text) ++ close ++ ['}'])
  | cons {key : String} {value : Json} {next : String × Json} {rest : List (String × Json)}
      {gap between text more : List Char} (hgap : IsGap gap) (hbetween : IsGap between)
      (h : Written value text) (hmore : WrittenEntries (next :: rest) more) :
      WrittenEntries ((key, value) :: next :: rest)
        (gap ++ quoted key ++ ':' :: (between ++ text) ++ ',' :: more)

end

mutual

theorem written_compact : ∀ value : Json, Written value (compact value)
  | .null => .null
  | .bool value => .bool value
  | .number value => .number value
  | .string value => .string value
  | .array items => .array (writtenItems_compact items)
  | .object entries => .object (writtenEntries_compact entries)

theorem writtenItems_compact : ∀ items : List Json, WrittenItems items (compactItems items)
  | [] => .nil
  | [item] => by
    have h := WrittenItems.last isGap_nil (written_compact item) isGap_nil
    simpa [compactItems] using h
  | item :: next :: rest => by
    have h := WrittenItems.cons isGap_nil (written_compact item)
      (writtenItems_compact (next :: rest))
    simpa [compactItems] using h

theorem writtenEntries_compact :
    ∀ entries : List (String × Json), WrittenEntries entries (compactEntries entries)
  | [] => .nil
  | [(key, value)] => by
    have h : WrittenEntries [(key, value)] _ :=
      .last isGap_nil isGap_nil (written_compact value) isGap_nil
    simpa [compactEntries] using h
  | (key, value) :: next :: rest => by
    have h : WrittenEntries ((key, value) :: next :: rest) _ :=
      .cons isGap_nil isGap_nil (written_compact value) (writtenEntries_compact (next :: rest))
    simpa [compactEntries] using h

end

-- A new line and its indentation are a gap, at any level.
theorem isGap_newLine (level : Nat) : IsGap (newLine level) := by
  intro c hc
  rcases List.mem_cons.mp hc with rfl | hc
  · exact .inr (.inl rfl)
  · exact .inl (List.eq_of_mem_replicate hc)

mutual

theorem written_pretty : ∀ (level : Nat) (value : Json), Written value (pretty level value)
  | _, .null => .null
  | _, .bool value => .bool value
  | _, .number value => .number value
  | _, .string value => .string value
  | _, .array [] => .array .nil
  | _, .object [] => .object .nil
  | level, .array (item :: rest) => .array (writtenItems_pretty level (item :: rest) nofun)
  | level, .object (entry :: rest) => .object (writtenEntries_pretty level (entry :: rest) nofun)

theorem writtenItems_pretty : ∀ (level : Nat) (items : List Json), items ≠ [] →
    WrittenItems items (prettyItems level items)
  | _, [], h => absurd rfl h
  | _, [item], _ => .last (isGap_newLine _) (written_pretty _ item) (isGap_newLine _)
  | level, item :: next :: rest, _ =>
    .cons (isGap_newLine _) (written_pretty _ item) (writtenItems_pretty level (next :: rest) nofun)

theorem writtenEntries_pretty : ∀ (level : Nat) (entries : List (String × Json)), entries ≠ [] →
    WrittenEntries entries (prettyEntries level entries)
  | _, [], h => absurd rfl h
  | level, [(key, value)], _ => by
    have h : WrittenEntries [(key, value)] _ :=
      .last (isGap_newLine (level + 1)) isGap_blank (written_pretty (level + 1) value)
        (isGap_newLine level)
    simpa [prettyEntries] using h
  | level, (key, value) :: next :: rest, _ => by
    have h : WrittenEntries ((key, value) :: next :: rest) _ :=
      .cons (isGap_newLine (level + 1)) isGap_blank (written_pretty (level + 1) value)
        (writtenEntries_pretty level (next :: rest) nofun)
    simpa [prettyEntries] using h

end

end DocPipeline.Json
