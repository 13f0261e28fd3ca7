import DocPipeline.Source.Declaration
import DocPipeline.Proofs.Text.CharSet
import Mathlib.Data.List.Basic
import Mathlib.Data.List.Infix
import Mathlib.Data.List.TakeWhile

namespace DocPipeline

-- Words with a gap behind each.
inductive Spaced : List String → List Char → Prop where
  | nil : Spaced [] []
  | cons {word : String} {words : List String} {gap text : List Char} (hne : gap ≠ [])
      (hgap : ∀ c ∈ gap, Declaration.isGap c = true) (h : Spaced words text) :
      Spaced (word :: words) (word.toList ++ gap ++ text)

theorem Spaced.append {words others : List String} {text rest : List Char} (h : Spaced words text)
    (h' : Spaced others rest) : Spaced (words ++ others) (text ++ rest) := by
  induction h with
  | nil => exact h'
  | cons hne hgap _ ih =>
    rw [List.cons_append, List.append_assoc]
    exact .cons hne hgap ih

namespace Declaration

-- The words that may stand in front of the keyword.
def modifiers : List (List String) :=
  [[], ["async"], ["export"], ["export", "async"], ["export", "default"],
    ["export", "default", "async"]]

-- A name, and what is not part of it any more.
structure Names (name : String) (after : List Char) : Prop where
  chars : ∃ first rest, name.toList = first :: rest ∧ isNameStart first = true ∧
    ∀ c ∈ rest, isNamePart c = true
  ends : ∀ c ∈ after.head?, isNamePart c = false

-- A text that begins with a declaration, and what stands in front of the keyword there.
inductive Clause (kind name : String) : (text lead : List Char) → Prop where
  | mk {indent front gap after : List Char} {words : List String} {keyword : String}
      (hindent : ∀ c ∈ indent, isGap c = true) (hwords : words ∈ modifiers)
      (hfront : Spaced words front) (hkeyword : (keyword, kind) ∈ keywords) (hne : gap ≠ [])
      (hgap : ∀ c ∈ gap, isGap c = true) (hname : Names name after) :
      Clause kind name (indent ++ (front ++ (keyword.toList ++ gap ++ (name.toList ++ after))))
        (indent ++ front)

variable {text front rest lead gap after : List Char} {word keyword kind name : String}
variable {words : List String}

theorem dropWhile_of_head? {p : Char → Bool} (h : ∀ c ∈ text.head?, p c = false) :
    text.dropWhile p = text := by
  cases text with
  | nil => rfl
  | cons c text => exact List.dropWhile_cons_of_neg (by simp [h c rfl])

section Words

theorem afterWord?_spaced (hne : gap ≠ []) (hgap : ∀ c ∈ gap, isGap c = true)
    (hrest : ∀ c ∈ rest.head?, isGap c = false) :
    afterWord? word (word.toList ++ gap ++ rest) = some rest := by
  obtain ⟨c, gap, rfl⟩ := List.exists_cons_of_ne_nil hne
  have hbegins : word.toList.isPrefixOf (word.toList ++ (c :: gap ++ rest)) = true :=
    List.isPrefixOf_iff_prefix.mpr (List.prefix_append _ _)
  have hhead : (c :: gap ++ rest).head?.any isGap = true := by
    simpa using hgap c List.mem_cons_self
  have hdrop : (c :: gap ++ rest).dropWhile isGap = rest := by
    rw [List.dropWhile_append_of_pos hgap, dropWhile_of_head? hrest]
  rw [afterWord?, ← String.length_toList, List.append_assoc, List.drop_left]
  simp only [hbegins, hhead, hdrop, Bool.and_self, if_pos]

theorem spaced_of_afterWord? (h : afterWord? word text = some rest) :
    ∃ gap, gap ≠ [] ∧ (∀ c ∈ gap, isGap c = true) ∧ text = word.toList ++ gap ++ rest := by
  simp only [afterWord?, ← String.length_toList] at h
  split at h
  next hboth =>
    rw [Bool.and_eq_true, List.isPrefixOf_iff_prefix] at hboth
    obtain ⟨⟨more, rfl⟩, hhead⟩ := hboth
    rw [List.drop_left] at h hhead
    cases h
    refine ⟨more.takeWhile isGap, ?_, fun c hc => List.mem_takeWhile_imp hc, ?_⟩
    · cases more with
      | nil => cases hhead
      | cons c more =>
        have hc : isGap c = true := by simpa using hhead
        simp [hc]
    · rw [List.append_assoc, List.takeWhile_append_dropWhile]
  next => cases h

theorem afterWord?_eq_none {c d : Char} (hword : word.toList.head? = some d)
    (h : text.head? = some c) (hne : c ≠ d) : afterWord? word text = none := by
  rw [Option.eq_none_iff_forall_ne_some]
  intro rest hsome
  obtain ⟨gap, -, -, rfl⟩ := spaced_of_afterWord? hsome
  rw [List.append_assoc, List.head?_append, hword] at h
  exact hne (Option.some.inj h).symm

theorem skipWord_spaced (hne : gap ≠ []) (hgap : ∀ c ∈ gap, isGap c = true)
    (hrest : ∀ c ∈ rest.head?, isGap c = false) :
    skipWord word (word.toList ++ gap ++ rest) = rest := by
  rw [skipWord, afterWord?_spaced hne hgap hrest, Option.getD_some]

theorem skipWord_of_head? {c d : Char} (hword : word.toList.head? = some d)
    (h : text.head? = some c) (hne : c ≠ d) : skipWord word text = text := by
  rw [skipWord, afterWord?_eq_none hword h hne, Option.getD_none]

-- A word is skipped with its gap, or there is none.
theorem spaced_skipWord (word : String) (text : List Char) :
    ∃ words front, (words = [] ∨ words = [word]) ∧ Spaced words front ∧
      text = front ++ skipWord word text := by
  rw [skipWord]
  cases h : afterWord? word text with
  | none => exact ⟨[], [], .inl rfl, .nil, rfl⟩
  | some rest =>
    obtain ⟨gap, hne, hgap, rfl⟩ := spaced_of_afterWord? h
    exact ⟨[word], _, .inr rfl, .cons hne hgap .nil, by simp⟩

end Words

section Modifiers

theorem spaced_skipModifiers (text : List Char) :
    ∃ words front, words ∈ modifiers ∧ Spaced words front ∧
      text = front ++ skipModifiers text := by
  rw [skipModifiers]
  cases hexport : afterWord? "export" text with
  | none =>
    obtain ⟨words, front, hwords, hfront, htext⟩ := spaced_skipWord "async" text
    refine ⟨words, front, ?_, hfront, htext⟩
    rcases hwords with rfl | rfl <;> decide
  | some rest =>
    obtain ⟨gap, hne, hgap, rfl⟩ := spaced_of_afterWord? hexport
    obtain ⟨first, front, hfirst, hfront, hrest⟩ := spaced_skipWord "default" rest
    obtain ⟨second, back, hsecond, hback, hlast⟩ :=
      spaced_skipWord "async" (skipWord "default" rest)
    refine ⟨"export" :: (first ++ second), _, ?_, .cons hne hgap (hfront.append hback), ?_⟩
    · rcases hfirst with rfl | rfl <;> rcases hsecond with rfl | rfl <;> decide
    · dsimp only
      rw [List.append_assoc _ (front ++ back), List.append_assoc front, ← hlast, ← hrest]

theorem skipModifiers_of_head? {c : Char} (h : text.head? = some c) (hne : c ≠ 'e') :
    skipModifiers text = skipWord "async" text := by
  rw [skipModifiers, afterWord?_eq_none rfl h hne]

theorem skipModifiers_export (hne : gap ≠ []) (hgap : ∀ c ∈ gap, isGap c = true)
    (hrest : ∀ c ∈ rest.head?, isGap c = false) :
    skipModifiers ("export".toList ++ gap ++ rest) =
      skipWord "async" (skipWord "default" rest) := by
  rw [skipModifiers, afterWord?_spaced hne hgap hrest]

-- No modifier begins like a keyword, so all of them are skipped in front of one.
theorem skipModifiers_spaced (hwords : words ∈ modifiers) (hfront : Spaced words front) {c : Char}
    (hc : c = 'c' ∨ c = 'f') (htext : text.head? = some c) :
    skipModifiers (front ++ text) = text := by
  have hgap : ∀ d ∈ text.head?, isGap d = false := by
    rw [htext]
    rintro d ⟨⟩
    rcases hc with rfl | rfl <;> rfl
  have hdefault : skipWord "default" text = text :=
    skipWord_of_head? rfl htext (by rcases hc with rfl | rfl <;> decide)
  have hasync : skipWord "async" text = text :=
    skipWord_of_head? rfl htext (by rcases hc with rfl | rfl <;> decide)
  -- What begins with `async` begins with no gap, and with none of the other words.
  have hhead : ∀ gap : List Char, ("async".toList ++ gap ++ text).head? = some 'a' := fun _ => rfl
  have hfirst : ∀ gap : List Char,
      ∀ d ∈ ("async".toList ++ gap ++ text).head?, isGap d = false := by
    rintro gap d ⟨⟩
    rfl
  have hsecond : ∀ gap more : List Char,
      ∀ d ∈ ("default".toList ++ gap ++ more).head?, isGap d = false := by
    rintro gap more d ⟨⟩
    rfl
  simp only [modifiers, List.mem_cons, List.not_mem_nil, or_false] at hwords
  rcases hwords with rfl | rfl | rfl | rfl | rfl | rfl
  · cases hfront
    rw [List.nil_append, skipModifiers_of_head? htext (by rcases hc with rfl | rfl <;> decide),
      hasync]
  · obtain _ | ⟨hne, hgaps, _ | _⟩ := hfront
    rw [List.append_nil, skipModifiers_of_head? (hhead _) (by decide),
      skipWord_spaced hne hgaps hgap]
  · obtain _ | ⟨hne, hgaps, _ | _⟩ := hfront
    rw [List.append_nil, skipModifiers_export hne hgaps hgap, hdefault, hasync]
  · obtain _ | ⟨hne, hgaps, _ | ⟨hne', hgaps', _ | _⟩⟩ := hfront
    rw [List.append_nil, List.append_assoc _ _ text, skipModifiers_export hne hgaps (hfirst _),
      skipWord_of_head? rfl (hhead _) (by decide), skipWord_spaced hne' hgaps' hgap]
  · obtain _ | ⟨hne, hgaps, _ | ⟨hne', hgaps', _ | _⟩⟩ := hfront
    rw [List.append_nil, List.append_assoc _ _ text, skipModifiers_export hne hgaps (hsecond _ _),
      skipWord_spaced hne' hgaps' hgap, hasync]
  · obtain _ | ⟨hne, hgaps, _ | ⟨hne', hgaps', _ | ⟨hne'', hgaps'', _ | _⟩⟩⟩ := hfront
    rw [List.append_nil, List.append_assoc _ _ text, List.append_assoc _ _ text,
      skipModifiers_export hne hgaps (hsecond _ _), skipWord_spaced hne' hgaps' (hfirst _),
      skipWord_spaced hne'' hgaps'' hgap]

-- Neither a modifier nor a keyword begins with a gap.
theorem head?_spaced (hwords : words ∈ modifiers) (hfront : Spaced words front) {c : Char}
    (hc : c = 'c' ∨ c = 'f') (htext : text.head? = some c) :
    ∀ d ∈ (front ++ text).head?, isGap d = false := by
  cases hfront with
  | nil =>
    rw [List.nil_append, htext]
    rintro d ⟨⟩
    rcases hc with rfl | rfl <;> rfl
  | @cons word words gap more hne hgap hmore =>
    have hword : word = "async" ∨ word = "export" := by
      simp only [modifiers, List.mem_cons, List.cons.injEq, List.not_mem_nil] at hwords
      tauto
    rw [List.append_assoc, List.append_assoc, List.head?_append]
    rcases hword with rfl | rfl
    · rintro d ⟨⟩
      rfl
    · rintro d ⟨⟩
      rfl

end Modifiers

section Line

theorem name?_eq_some_iff : name? text = some name ↔ ∃ after, text = name.toList ++ after ∧
    Names name after := by
  cases text with
  | nil =>
    constructor
    · intro h
      cases h
    · rintro ⟨after, htext, ⟨first, rest, hname, -, -⟩, -⟩
      rw [hname] at htext
      cases htext
  | cons c text =>
    rw [name?]
    constructor
    · intro h
      split at h
      next hstart =>
        cases h
        refine ⟨text.dropWhile isNamePart, ?_, ⟨c, text.takeWhile isNamePart, ?_, hstart,
          fun d hd => List.mem_takeWhile_imp hd⟩, fun d hd => ?_⟩
        · rw [String.toList_ofList, List.cons_append, List.takeWhile_append_dropWhile]
        · exact String.toList_ofList
        · have hnot := List.head?_dropWhile_not isNamePart text
          rw [hd] at hnot
          exact hnot
      next => cases h
    · rintro ⟨after, htext, ⟨first, rest, hname, hstart, hrest⟩, hends⟩
      rw [hname, List.cons_append] at htext
      obtain ⟨rfl, rfl⟩ := List.cons.inj htext
      have hafter : after.takeWhile isNamePart = [] := by
        cases after with
        | nil => rfl
        | cons d after => exact List.takeWhile_cons_of_neg (by simp [hends d rfl])
      rw [if_pos hstart, List.takeWhile_append_of_pos hrest, hafter, List.append_nil, ← hname,
        String.ofList_toList]

theorem Names.head?_not_gap (h : Names name after) :
    ∀ c ∈ (name.toList ++ after).head?, isGap c = false := by
  obtain ⟨first, rest, hname, hstart, -⟩ := h.chars
  rw [hname]
  rintro c ⟨⟩
  rw [Bool.eq_false_iff]
  intro hgap
  rw [isGap, Bool.or_eq_true, beq_iff_eq, beq_iff_eq] at hgap
  rcases hgap with rfl | rfl <;> cases hstart

-- What a keyword makes of a text.
def declared? (text : List Char) (entry : String × String) : Option (String × String) := do
  let rest ← afterWord? entry.1 text
  return (entry.2, ← name? rest)

theorem ofLine?_eq (line : List Char) :
    ofLine? line = keywords.findSome? (declared? (skipModifiers (line.dropWhile isGap))) := rfl

theorem declared?_of_head? {c d : Char} (hword : word.toList.head? = some d)
    (h : text.head? = some c) (hne : c ≠ d) : declared? text (word, kind) = none := by
  rw [declared?, afterWord?_eq_none hword h hne]
  rfl

theorem findSome?_keywords (hkeyword : (keyword, kind) ∈ keywords) (hne : gap ≠ [])
    (hgap : ∀ c ∈ gap, isGap c = true) (hname : Names name after) :
    keywords.findSome? (declared? (keyword.toList ++ gap ++ (name.toList ++ after))) =
      some (kind, name) := by
  have hdeclared : declared? (keyword.toList ++ gap ++ (name.toList ++ after)) (keyword, kind) =
      some (kind, name) := by
    rw [declared?, afterWord?_spaced hne hgap hname.head?_not_gap]
    have hread := name?_eq_some_iff.mpr ⟨after, rfl, hname⟩
    simp only [Option.bind_eq_bind, Option.bind_some, hread]
    rfl
  simp only [keywords, List.mem_cons, Prod.mk.injEq, List.not_mem_nil, or_false] at hkeyword
  rw [keywords]
  rcases hkeyword with ⟨rfl, rfl⟩ | ⟨rfl, rfl⟩ | ⟨rfl, rfl⟩
  · rw [List.findSome?_cons, hdeclared]
  · rw [List.findSome?_cons, declared?_of_head? rfl rfl (by decide), List.findSome?_cons, hdeclared]
  · -- The gap behind the shorter keyword is not the star of the longer one.
    have hlonger : declared? ("function".toList ++ gap ++ (name.toList ++ after))
        ("function*", "function") = none := by
      rw [declared?, Option.bind_eq_bind, Option.bind_eq_none_iff]
      intro rest hsome
      obtain ⟨more, -, -, htext⟩ := spaced_of_afterWord? hsome
      obtain ⟨c, gap, rfl⟩ := List.exists_cons_of_ne_nil hne
      have hc := hgap c List.mem_cons_self
      have hword : "function*".toList = "function".toList ++ ['*'] := rfl
      rw [hword, List.append_assoc, List.append_assoc, List.append_assoc,
        List.append_cancel_left_eq] at htext
      rw [(List.cons.inj htext).1] at hc
      cases hc
    rw [List.findSome?_cons, declared?_of_head? rfl rfl (by decide), List.findSome?_cons, hlonger,
      List.findSome?_cons, hdeclared]

-- The words in front of the keyword are skipped, and the declaration is read from there.
theorem Clause.skip (h : Clause kind name text lead) :
    text = lead ++ skipModifiers (text.dropWhile isGap) ∧ ofLine? text = some (kind, name) := by
  rcases h with @⟨indent, front, gap, after, words, keyword, hindent, hwords, hfront, hkeyword, hne,
    hgap, hname⟩
  obtain ⟨c, hc, hhead⟩ : ∃ c, (c = 'c' ∨ c = 'f') ∧
      (keyword.toList ++ gap ++ (name.toList ++ after)).head? = some c := by
    simp only [keywords, List.mem_cons, Prod.mk.injEq, List.not_mem_nil, or_false] at hkeyword
    rcases hkeyword with ⟨rfl, -⟩ | ⟨rfl, -⟩ | ⟨rfl, -⟩
    · exact ⟨'c', .inl rfl, rfl⟩
    · exact ⟨'f', .inr rfl, rfl⟩
    · exact ⟨'f', .inr rfl, rfl⟩
  have hskip : skipModifiers ((indent ++ (front ++ (keyword.toList ++ gap ++
      (name.toList ++ after)))).dropWhile isGap) =
        keyword.toList ++ gap ++ (name.toList ++ after) := by
    rw [List.dropWhile_append_of_pos hindent,
      dropWhile_of_head? (head?_spaced hwords hfront hc hhead),
      skipModifiers_spaced hwords hfront hc hhead]
  rw [ofLine?_eq, hskip]
  exact ⟨(List.append_assoc _ _ _).symm, findSome?_keywords hkeyword hne hgap hname⟩

-- The keyword begins with a letter.
theorem Clause.exists_not_blank (h : Clause kind name text lead) :
    ∃ c ∈ text, Text.isBlank c = false := by
  obtain ⟨-, -, -, hkeyword, -, -, -⟩ := h
  simp only [keywords, List.mem_cons, Prod.mk.injEq, List.not_mem_nil, or_false] at hkeyword
  rcases hkeyword with ⟨rfl, -⟩ | ⟨rfl, -⟩ | ⟨rfl, -⟩
  · exact ⟨'c', by simp, by decide⟩
  · exact ⟨'f', by simp, by decide⟩
  · exact ⟨'f', by simp, by decide⟩

-- What is read from a text is what is written at its beginning.
theorem ofLine?_eq_some_iff : ofLine? text = some (kind, name) ↔
    ∃ lead, Clause kind name text lead := by
  constructor
  · intro h
    rw [ofLine?_eq] at h
    obtain ⟨⟨keyword, k⟩, hkeyword, h⟩ := List.exists_of_findSome?_eq_some h
    obtain ⟨rest, hrest, h⟩ := Option.bind_eq_some_iff.mp h
    obtain ⟨n, hn, h⟩ := Option.bind_eq_some_iff.mp h
    cases h
    obtain ⟨words, front, hwords, hfront, hskip⟩ := spaced_skipModifiers (text.dropWhile isGap)
    obtain ⟨gap, hne, hgap, hclause⟩ := spaced_of_afterWord? hrest
    obtain ⟨after, rfl, hname⟩ := name?_eq_some_iff.mp hn
    have hindent : ∀ c ∈ text.takeWhile isGap, isGap c = true :=
      fun c hc => List.mem_takeWhile_imp hc
    have hwritten := Clause.mk hindent hwords hfront hkeyword hne hgap hname
    rw [← hclause, ← hskip, List.takeWhile_append_dropWhile] at hwritten
    exact ⟨_, hwritten⟩
  · rintro ⟨lead, h⟩
    exact h.skip.2

end Line

end Declaration

end DocPipeline
