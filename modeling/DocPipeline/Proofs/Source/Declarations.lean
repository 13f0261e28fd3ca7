import DocPipeline.Proofs.Path.Names
import DocPipeline.Proofs.Tree.Follow
import DocPipeline.Source.FileRuntime
import Mathlib.Data.List.Forall2
import Mathlib.Data.List.Infix

namespace DocPipeline

-- A line of a text, and the text before it.
structure Spot where
  before : List Char
  line : List Char

namespace Spot

variable {spot : Spot} {text front : List Char}

-- The spot is a whole line of the text.
structure In (spot : Spot) (text after : List Char) : Prop where
  text_eq : text = spot.before ++ spot.line ++ after
  one_line : '\n' ∉ spot.line
  starts : spot.before = [] ∨ ∃ front, spot.before = front ++ ['\n']
  ends : after = [] ∨ ∃ rest, after = '\n' :: rest

-- Lines as the spots that they are, if they follow a text.
def follow (front : List Char) : List (List Char) → List Spot
  | [] => []
  | line :: rest => ⟨front, line⟩ :: follow (front ++ line ++ ['\n']) rest

def declares? (spot : Spot) : Option (String × String) := Declaration.ofLine? spot.line

-- The lines that declare something, in order.
def declaring (text : List Char) : List Spot :=
  (follow [] (text.splitOn '\n')).filter fun spot => spot.declares?.isSome

def above (spot : Spot) : List Char := Text.trimEnd spot.before

def documented (spot : Spot) : Bool := Text.endsWith spot.above "*/".toList

-- The line has a complete comment for documentation above it, which the last `*/` there closes. No
-- character both opens and closes it. Whether `/**` stands in a string or in another comment is not
-- asked.
def HasDocComment (spot : Spot) : Prop :=
  ∃ front body, spot.above = front ++ "/**".toList ++ body ++ "*/".toList ∧
    ¬ "*/".toList <:+: '*' :: body

theorem in_of_mem_follow (hfront : front = [] ∨ ∃ rest, front = rest ++ ['\n'])
    (h : spot ∈ follow front (text.splitOn '\n')) : ∃ after, spot.In (front ++ text) after := by
  induction hn : text.length using Nat.strongRecOn generalizing front text with
  | _ n ih =>
    by_cases hc : '\n' ∈ text
    · obtain ⟨line, rest, rfl, hline⟩ := List.eq_append_cons_of_mem hc
      rw [List.splitOn_append_cons_self, List.splitOn_eq_singleton hline, List.singleton_append,
        follow, List.mem_cons] at h
      rcases h with rfl | h
      · exact ⟨'\n' :: rest, by simp, hline, hfront, .inr ⟨rest, rfl⟩⟩
      · obtain ⟨after, hin⟩ := ih rest.length (by simp at hn; omega) (.inr ⟨_, rfl⟩) h rfl
        exact ⟨after, by simpa using hin⟩
    · rw [List.splitOn_eq_singleton hc, follow, follow, List.mem_singleton] at h
      subst h
      exact ⟨[], by simp, hc, hfront, .inl rfl⟩

theorem documented_iff : spot.documented = true ↔ "*/".toList <:+ spot.above := by
  rw [documented, Text.endsWith, List.isPrefixOf_iff_prefix, List.reverse_prefix]

theorem documented_of_hasDocComment (h : spot.HasDocComment) : spot.documented = true := by
  obtain ⟨front, body, habove, -⟩ := h
  exact documented_iff.mpr ⟨_, habove.symm⟩

end Spot

-- The declaration is the one that its line makes.
structure Declaration.MadeAt (d : Declaration) (spot : Spot) : Prop where
  declares : spot.declares? = some (d.kind, d.name)
  line : d.line = spot.before.count '\n' + 1
  documented : d.documented = spot.documented

-- The record tells that declaration, and is flagged unless the text above ends in the right way.
structure Record.Tells (record : Record) (spot : Spot) : Prop where
  declares : ∃ kind name, spot.declares? = some (kind, name) ∧ record.kind = .entity kind ∧
    record.fields.get? "name" = some (.string name)
  flag : record.fields.get? "undocument" = some (.bool (!spot.documented))

section Scan

variable {d : Declaration} {spot : Spot}

theorem Declaration.endsInComment_reverse (front : List Char) :
    endsInComment front.reverse = Text.endsWith (Text.trimEnd front) "*/".toList := by
  rw [endsInComment, Text.endsWith, Text.trimEnd, List.reverse_reverse]
  rfl

theorem Declaration.ofLines_cons (n : Nat) (before line : List Char) (rest : List (List Char)) :
    ofLines n before (line :: rest) =
      let others := ofLines (n + 1) ('\n' :: (line.reverse ++ before)) rest
      match ofLine? line with
      | some (kind, name) => ⟨kind, name, n, endsInComment before⟩ :: others
      | none => others := by
  rfl

theorem Declaration.ofLines_madeAt (front : List Char) {lines : List (List Char)}
    (hlines : ∀ line ∈ lines, '\n' ∉ line) :
    List.Forall₂ MadeAt (ofLines (front.count '\n' + 1) front.reverse lines)
      ((Spot.follow front lines).filter fun spot => spot.declares?.isSome) := by
  induction lines generalizing front with
  | nil => exact .nil
  | cons line rest ih =>
    have hline := hlines line List.mem_cons_self
    have hrest := ih (front ++ line ++ ['\n']) fun l hl => hlines l (List.mem_cons_of_mem _ hl)
    have hcount : (front ++ line ++ ['\n']).count '\n' = front.count '\n' + 1 := by
      simp [List.count_eq_zero.mpr hline]
    rw [hcount, List.reverse_append, List.reverse_append] at hrest
    rw [ofLines_cons, Spot.follow]
    have hspot : (⟨front, line⟩ : Spot).declares? = ofLine? line := rfl
    cases hdeclares : ofLine? line with
    | none =>
      rw [List.filter_cons_of_neg (by simp [hspot, hdeclares])]
      exact hrest
    | some found =>
      rw [List.filter_cons_of_pos (by simp [hspot, hdeclares])]
      exact .cons ⟨hdeclares, rfl, endsInComment_reverse front⟩ hrest

theorem Declaration.ofCode_madeAt (code : String) :
    List.Forall₂ MadeAt (ofCode code) (Spot.declaring code.toList) :=
  ofLines_madeAt [] fun _ => Path.not_mem_of_mem_splitOn

theorem Declaration.kind_of_ofLine? {line : List Char} {kind name : String}
    (h : ofLine? line = some (kind, name)) : kind = "class" ∨ kind = "function" := by
  obtain ⟨⟨word, found⟩, hword, h⟩ := List.exists_of_findSome?_eq_some h
  obtain ⟨rest, -, h⟩ := Option.bind_eq_some_iff.mp h
  obtain ⟨n, -, h⟩ := Option.bind_eq_some_iff.mp h
  cases h
  simp only [keywords, List.mem_cons, Prod.mk.injEq, List.not_mem_nil] at hword
  tauto

-- So what is declared is never spelled as a file.
theorem Declaration.MadeAt.ofText_kind (h : d.MadeAt spot) :
    DocKind.ofText d.kind = .entity d.kind := by
  rcases kind_of_ofLine? h.declares with hkind | hkind <;> rw [hkind] <;> rfl

theorem Declaration.MadeAt.toRecord_tells (h : d.MadeAt spot) (owner : String)
    (path : Option String) :
    (FileRuntime.markImport path (d.toRecord owner)).Tells spot := by
  cases path with
  | none => exact ⟨⟨d.kind, d.name, h.declares, h.ofText_kind, rfl⟩, h.documented ▸ rfl⟩
  | some path => exact ⟨⟨d.kind, d.name, h.declares, h.ofText_kind, rfl⟩, h.documented ▸ rfl⟩

end Scan

namespace FileRuntime

theorem declarationRecords_tell (code owner : String) (path : Option String) :
    List.Forall₂ Record.Tells ((declarationRecords code owner).map (markImport path))
      (Spot.declaring code.toList) := by
  rw [declarationRecords, List.map_map, List.forall₂_map_left_iff]
  exact (Declaration.ofCode_madeAt code).imp fun _ _ hmade => hmade.toRecord_tells owner path

-- A declaration is flagged unless what is above it ends with `*/`. So it never is below a comment
-- for documentation, and the flag is right about these comments unless other text ends like one.
theorem undocumented_exact (code : String) :
    (∀ (tree : Tree) dir file hint, tree.readText file = .ok code → Text.allBlank code = false →
      ∃ records, parseFile tree dir file hint =
          .ok (some ⟨fileRecord code (Path.relativeTo dir file) :: records, some (ast code)⟩) ∧
        List.Forall₂ Record.Tells records (Spot.declaring code.toList)) ∧
    (∀ dir, ∃ records, parseCode dir code =
          .ok (if records.isEmpty then none else some ⟨records, none⟩) ∧
        List.Forall₂ Record.Tells records (Spot.declaring code.toList)) ∧
    ∀ spot ∈ Spot.declaring code.toList,
      (∃ after, spot.In code.toList after) ∧
      (spot.documented = true ↔ "*/".toList <:+ spot.above) ∧
      (spot.HasDocComment → spot.documented = true) ∧
      ((spot.documented = true ↔ spot.HasDocComment) ↔
        ("*/".toList <:+ spot.above → spot.HasDocComment)) := by
  refine ⟨fun tree dir file hint hread hblank => ?_, fun dir => ?_, fun spot hspot => ?_⟩
  · refine ⟨_, ?_, declarationRecords_tell code (Path.relativeTo dir file)
      (importPath? hint file)⟩
    simp only [parseFile, readSource, hread, bind, Except.bind, hblank]
    rfl
  · refine ⟨declarationRecords code "virtual", ?_, ?_⟩
    · rw [parseCode]
      cases declarationRecords code "virtual" <;> rfl
    · have htell := declarationRecords_tell code "virtual" none
      rwa [show markImport none = id from rfl, List.map_id] at htell
  · have hdocumented : spot.HasDocComment → "*/".toList <:+ spot.above :=
      fun hdoc => Spot.documented_iff.mp (Spot.documented_of_hasDocComment hdoc)
    refine ⟨Spot.in_of_mem_follow (.inl rfl) (List.mem_filter.mp hspot).1, Spot.documented_iff,
      Spot.documented_of_hasDocComment, ?_⟩
    rw [Spot.documented_iff]
    exact ⟨Iff.mp, fun h => ⟨h, hdocumented⟩⟩

def mixedSource : String := "/** A. */\nclass A \x7b\x7d\n// B\nfunction b() \x7b\x7d\n"

theorem mixed_source_flagged :
    ∃ documented bare, Spot.declaring mixedSource.toList = [documented, bare] ∧
      documented.HasDocComment ∧ documented.documented = true ∧ bare.documented = false ∧
      ∃ tree records ast, parseFile tree ⟨"/p"⟩ ⟨"/p/a.js"⟩ {} =
          .ok (some ⟨fileRecord mixedSource "a.js" :: records, some ast⟩) ∧
        List.Forall₂ Record.Tells records [documented, bare] := by
  let documented : Spot := ⟨"/** A. */\n".toList, "class A \x7b\x7d".toList⟩
  let bare : Spot := ⟨"/** A. */\nclass A \x7b\x7d\n// B\n".toList, "function b() \x7b\x7d".toList⟩
  have hspots : Spot.declaring mixedSource.toList = [documented, bare] := rfl
  obtain ⟨hfile, -, hrule⟩ := undocumented_exact mixedSource
  have hdoc : documented.HasDocComment := ⟨[], " A. ".toList, by decide, by decide⟩
  obtain ⟨-, -, hdocumented, -⟩ := hrule documented (hspots ▸ List.mem_cons_self)
  let tree : Tree := ⟨[(["p"], .directory), (["p", "a.js"], .file mixedSource.toUTF8)]⟩
  have hfind : tree.find ⟨"/p/a.js"⟩ = .ok (["p", "a.js"], .file mixedSource.toUTF8) := rfl
  obtain ⟨records, hparsed, htell⟩ := hfile tree ⟨"/p"⟩ ⟨"/p/a.js"⟩ {} (Tree.readText_of_find hfind)
    (by decide)
  exact ⟨documented, bare, hspots, hdoc, hdocumented hdoc, by decide, tree, records, _, hparsed,
    hspots ▸ htell⟩

-- No comment for documentation is in this text, and still the class is not flagged.
theorem plain_comment_documents :
    ∃ record spot,
      parseCode ⟨"/p"⟩ "/* plain */\nclass A \x7b\x7d" = .ok (some ⟨[record], none⟩) ∧
      record.isUndocumented = false ∧
      Spot.declaring "/* plain */\nclass A \x7b\x7d".toList = [spot] ∧ ¬ spot.HasDocComment := by
  refine ⟨_, ⟨"/* plain */\n".toList, "class A \x7b\x7d".toList⟩, rfl, rfl, rfl, ?_⟩
  rintro ⟨front, body, habove, -⟩
  have hcomment : Text.trimEnd "/* plain */\n".toList = "/* plain */".toList := by decide
  have hnone : ¬ "/**".toList <:+: "/* plain */".toList := by decide
  have hopener : "/* plain */".toList = front ++ "/**".toList ++ body ++ "*/".toList :=
    hcomment.symm.trans habove
  exact hnone ⟨front, body ++ "*/".toList, by rw [hopener]; simp⟩

end FileRuntime

end DocPipeline
