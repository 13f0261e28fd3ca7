import DocPipeline.Proofs.Database.Index
import DocPipeline.Proofs.Source.Clause
import DocPipeline.Proofs.Source.Declarations

namespace DocPipeline

-- A declaration of a text: what stands in front of its keyword, what is declared, and its name.
structure Site where
  front : List Char
  kind : String
  name : String

namespace Site

-- It is written at the beginning of a whole line of the text.
inductive In (text : List Char) : Site → Prop where
  | mk {spot : Spot} {after lead : List Char} {kind name : String} (hspot : spot.In text after)
      (hclause : Declaration.Clause kind name spot.line lead) :
      In text ⟨spot.before ++ lead, kind, name⟩

-- Lines are counted from one.
def line (site : Site) : Nat := site.front.count '\n' + 1

def toJson (site : Site) : Json :=
  .object [("kind", .string site.kind), ("line", .nat site.line), ("name", .string site.name)]

end Site

-- The record tells a declaration of this file or fragment, and its line.
structure Record.Locates (owner : String) (record : Record) (site : Site) : Prop where
  kind : record.kind = .entity site.kind
  name : record.fields.get? "name" = some (.string site.name)
  longname : record.fields.get? "longname" = some (.string (owner ++ "~" ++ site.name))
  memberof : record.fields.get? "memberof" = some (.string owner)
  line : record.fields.get? "lineNumber" = some (.nat site.line)

-- The record of a file's declaration, and that of the same declaration in a fragment.
structure Record.Moved (record fragment : Record) : Prop where
  kind : fragment.kind = record.kind
  content : fragment.content = record.content
  isVirtual : fragment.isVirtual = record.isVirtual
  fields : ∀ key, key ∉ ["longname", "memberof", "importPath"] →
    fragment.fields.get? key = record.fields.get? key
  importPath : fragment.fields.get? "importPath" = none

namespace Text

variable {line : List Char}

theorem lineCount_cons {c : Char} (hc : c ≠ '\n') (text : List Char) :
    lineCount (c :: text) = if text = [] then 1 else lineCount text := by
  rw [lineCount.eq_def]
  split
  next h => cases h
  next h => exact absurd (List.cons.inj h).1 hc
  next h => rw [(List.cons.inj h).2, if_pos rfl]
  next h => rw [(List.cons.inj h).2, if_neg (List.cons_ne_nil _ _), lineCount]
  next hnil _ h =>
    obtain ⟨-, rfl⟩ := List.cons.inj h
    exact (if_neg hnil).symm

-- Everything up to a line feed is whole lines.
theorem lineCount_append_cons (front rest : List Char) :
    lineCount (front ++ '\n' :: rest) = front.count '\n' + 1 + lineCount rest := by
  induction front with
  | nil => rw [List.nil_append, lineCount, List.count_nil, Nat.zero_add, Nat.add_comm]
  | cons c front ih =>
    by_cases hc : c = '\n'
    · subst hc
      rw [List.cons_append, lineCount, ih, List.count_cons_self]
      omega
    · rw [List.cons_append, lineCount_cons hc, if_neg (by simp), ih, List.count_cons_of_ne hc]

theorem lineCount_of_not_mem (hne : line ≠ []) (h : '\n' ∉ line) : lineCount line = 1 := by
  induction line with
  | nil => exact absurd rfl hne
  | cons c line ih =>
    obtain ⟨hc, hline⟩ := not_or.mp (List.mem_cons.not.mp h)
    rw [lineCount_cons (Ne.symm hc)]
    split
    next => rfl
    next hne => exact ih hne hline

end Text

namespace Spot

variable {spot : Spot} {text front before line after words : List Char} {kind name : String}

-- Every whole line of a text is among those that the text is cut into.
theorem mem_follow (hbefore : before = [] ∨ ∃ rest, before = rest ++ ['\n'])
    (hline : '\n' ∉ line) (hafter : after = [] ∨ ∃ rest, after = '\n' :: rest) :
    ⟨front ++ before, line⟩ ∈ follow front ((before ++ line ++ after).splitOn '\n') := by
  induction hn : before.length using Nat.strongRecOn generalizing front before with
  | _ n ih =>
    by_cases hc : '\n' ∈ before
    · obtain ⟨first, rest, rfl, hfirst⟩ := List.eq_append_cons_of_mem hc
      have hrest : rest = [] ∨ ∃ more, rest = more ++ ['\n'] := by
        obtain rfl | ⟨more, last, rfl⟩ := List.eq_nil_or_concat rest
        · exact .inl rfl
        · obtain h | ⟨_, h⟩ := hbefore
          · simp at h
          · rw [List.concat_eq_append, ← List.cons_append, ← List.append_assoc] at h
            exact .inr ⟨more, by rw [List.concat_eq_append, (List.append_inj' h rfl).2]⟩
      have hlater : ⟨front ++ first ++ ['\n'] ++ rest, line⟩ ∈
          follow (front ++ first ++ ['\n']) ((rest ++ line ++ after).splitOn '\n') :=
        ih rest.length (by simp at hn; omega) hrest rfl
      rw [List.append_assoc, List.append_assoc, List.cons_append, List.splitOn_append_cons_self,
        List.splitOn_eq_singleton hfirst, List.singleton_append, follow]
      rw [← List.append_assoc]
      refine List.mem_cons_of_mem _ ?_
      simpa using hlater
    · obtain rfl | ⟨rest, rfl⟩ := hbefore
      · rw [List.append_nil, List.nil_append]
        obtain rfl | ⟨rest, rfl⟩ := hafter
        · rw [List.append_nil, List.splitOn_eq_singleton hline]
          exact List.mem_cons_self
        · rw [List.splitOn_append_cons_self, List.splitOn_eq_singleton hline]
          exact List.mem_cons_self
      · simp at hc

theorem In.mem_follow (h : spot.In text after) : spot ∈ follow [] (text.splitOn '\n') := by
  have hmem : ⟨[] ++ spot.before, spot.line⟩ ∈
      follow [] ((spot.before ++ spot.line ++ after).splitOn '\n') :=
    Spot.mem_follow h.starts h.one_line h.ends
  rw [List.nil_append, ← h.text_eq] at hmem
  exact hmem

theorem prefix_of_mem_follow {lines : List (List Char)} (h : spot ∈ follow front lines) :
    front <+: spot.before := by
  induction lines generalizing front with
  | nil => cases h
  | cons line lines ih =>
    rcases List.mem_cons.mp h with rfl | h
    · exact List.prefix_rfl
    · exact (List.prefix_append _ _).trans ((List.prefix_append _ _).trans (ih h))

-- Each line has more line feeds before it than those above it.
theorem pairwise_follow (front : List Char) (lines : List (List Char)) :
    (follow front lines).Pairwise fun spot later =>
      spot.before.count '\n' < later.before.count '\n' := by
  induction lines generalizing front with
  | nil => exact .nil
  | cons line lines ih =>
    refine .cons (fun later hlater => ?_) (ih _)
    have hle := (prefix_of_mem_follow hlater).sublist.count_le '\n'
    rw [List.count_append, List.count_append, List.count_singleton_self] at hle
    dsimp only
    omega

-- What stands in front of the keyword of a line that declares something.
def lead (spot : Spot) : List Char :=
  spot.line.take
    (spot.line.length - (Declaration.skipModifiers (spot.line.dropWhile Declaration.isGap)).length)

def site (spot : Spot) : Site :=
  let (kind, name) := spot.declares?.getD ("", "")
  ⟨spot.before ++ spot.lead, kind, name⟩

theorem lead_eq (h : Declaration.Clause kind name spot.line words) : spot.lead = words := by
  obtain ⟨hline, -⟩ := h.skip
  generalize hrest : Declaration.skipModifiers (spot.line.dropWhile Declaration.isGap) = rest at hline
  rw [lead, hrest, hline, List.length_append, Nat.add_sub_cancel, List.take_left]

theorem site_eq (h : Declaration.Clause kind name spot.line words) :
    spot.site = ⟨spot.before ++ words, kind, name⟩ := by
  have hdeclares : spot.declares? = some (kind, name) := h.skip.2
  rw [site, hdeclares, lead_eq h]
  rfl

theorem exists_clause (h : spot ∈ declaring text) : ∃ after kind name words,
    spot.In text after ∧ Declaration.Clause kind name spot.line words := by
  obtain ⟨hfollow, hdeclares⟩ := List.mem_filter.mp h
  obtain ⟨after, hin⟩ := in_of_mem_follow (.inl rfl) hfollow
  obtain ⟨⟨kind, name⟩, hdeclares⟩ := Option.isSome_iff_exists.mp hdeclares
  obtain ⟨words, hclause⟩ := Declaration.ofLine?_eq_some_iff.mp hdeclares
  exact ⟨after, kind, name, words, hin, hclause⟩

-- The keyword is on the line that declares something.
theorem line_site (h : spot ∈ declaring text) : spot.site.line = spot.before.count '\n' + 1 := by
  obtain ⟨after, kind, name, words, hin, hclause⟩ := exists_clause h
  have hwords : '\n' ∉ words := by
    intro hmem
    refine hin.one_line ?_
    rw [hclause.skip.1]
    exact List.mem_append_left _ hmem
  rw [site_eq hclause, Site.line, List.count_append, List.count_eq_zero.mpr hwords, Nat.add_zero]

theorem line_site_le (h : spot ∈ declaring text) : spot.site.line ≤ Text.lineCount text := by
  obtain ⟨after, kind, name, words, hin, hclause⟩ := exists_clause h
  have hne : spot.line ≠ [] := by
    intro hnil
    have hdeclares := hclause.skip.2
    rw [hnil] at hdeclares
    cases hdeclares
  have hrest : 1 ≤ Text.lineCount (spot.line ++ after) := by
    obtain rfl | ⟨rest, rfl⟩ := hin.ends
    · rw [List.append_nil, Text.lineCount_of_not_mem hne hin.one_line]
    · rw [Text.lineCount_append_cons]
      omega
  rw [line_site h, hin.text_eq, List.append_assoc]
  obtain hbefore | ⟨front, hbefore⟩ := hin.starts
  · rw [hbefore]
    exact hrest
  · rw [hbefore, List.append_assoc, List.singleton_append, Text.lineCount_append_cons,
      List.count_append, List.count_singleton_self]
    omega

end Spot

namespace Site

variable {site : Site} {text : List Char}

def sites (text : List Char) : List Site := (Spot.declaring text).map Spot.site

theorem mem_sites_iff : site ∈ sites text ↔ site.In text := by
  constructor
  · intro h
    obtain ⟨spot, hspot, rfl⟩ := List.mem_map.mp h
    obtain ⟨after, kind, name, words, hin, hclause⟩ := Spot.exists_clause hspot
    rw [Spot.site_eq hclause]
    exact .mk hin hclause
  · rintro ⟨hin, hclause⟩
    rw [← Spot.site_eq hclause]
    refine List.mem_map_of_mem (List.mem_filter.mpr ⟨hin.mem_follow, ?_⟩)
    rw [Spot.declares?, hclause.skip.2]
    rfl

theorem pairwise_line (text : List Char) :
    (sites text).Pairwise fun site later => site.line < later.line := by
  have hspots : (Spot.declaring text).Pairwise fun spot later =>
      spot.before.count '\n' < later.before.count '\n' :=
    (Spot.pairwise_follow [] _).filter _
  refine List.pairwise_map.mpr (hspots.imp_of_mem fun hspot hlater hlt => ?_)
  rw [Spot.line_site hspot, Spot.line_site hlater]
  exact Nat.succ_lt_succ hlt

theorem line_le_lineCount (h : site ∈ sites text) : site.line ≤ Text.lineCount text := by
  obtain ⟨spot, hspot, rfl⟩ := List.mem_map.mp h
  exact Spot.line_site_le hspot

end Site

section Scan

variable {d : Declaration} {site : Site} {code : String}

-- The declaration is the one at the site.
structure Declaration.StandsAt (d : Declaration) (site : Site) : Prop where
  kind : d.kind = site.kind
  entity : DocKind.ofText d.kind = .entity d.kind
  name : d.name = site.name
  line : d.line = site.line

theorem Declaration.MadeAt.standsAt {spot : Spot} {text : List Char} (h : d.MadeAt spot)
    (hspot : spot ∈ Spot.declaring text) : d.StandsAt spot.site := by
  have hsite : spot.site = ⟨spot.before ++ spot.lead, d.kind, d.name⟩ := by
    rw [Spot.site, h.declares]
    rfl
  exact ⟨by rw [hsite], h.ofText_kind, by rw [hsite], by rw [h.line, Spot.line_site hspot]⟩

theorem Declaration.ofCode_standsAt (code : String) :
    List.Forall₂ StandsAt (ofCode code) (Site.sites code.toList) := by
  have hmade : List.Forall₂ (fun spot d => spot ∈ Spot.declaring code.toList ∧ d.MadeAt spot)
      (Spot.declaring code.toList) (ofCode code) :=
    (List.forall₂_and_left _ _).mpr ⟨fun _ h => h, (ofCode_madeAt code).flip⟩
  refine List.forall₂_map_right_iff.mpr (hmade.flip.imp fun d spot h => ?_)
  exact h.2.standsAt h.1

theorem Declaration.StandsAt.toJson_eq (h : d.StandsAt site) : d.toJson = site.toJson := by
  rw [Declaration.toJson, Site.toJson, h.kind, h.name, h.line]

theorem Declaration.StandsAt.locates (h : d.StandsAt site) (owner : String)
    (path : Option String) :
    (FileRuntime.markImport path (d.toRecord owner)).Locates owner site := by
  have hkind : DocKind.ofText d.kind = .entity site.kind := h.kind ▸ h.entity
  cases path with
  | none => exact ⟨hkind, h.name ▸ rfl, h.name ▸ rfl, rfl, h.line ▸ rfl⟩
  | some path => exact ⟨hkind, h.name ▸ rfl, h.name ▸ rfl, rfl, h.line ▸ rfl⟩

theorem Declaration.moved (d : Declaration) (owner : String) (path : Option String) :
    (FileRuntime.markImport path (d.toRecord owner)).Moved (d.toRecord "virtual") := by
  have hfields : ∀ key, key ∉ ["longname", "memberof", "importPath"] →
      (d.toRecord "virtual").fields.get? key =
        (FileRuntime.markImport path (d.toRecord owner)).fields.get? key := by
    intro key hkey
    simp only [List.mem_cons, List.not_mem_nil, or_false, not_or] at hkey
    obtain ⟨hlongname, hmemberof, himportPath⟩ := hkey
    have hrecord : (d.toRecord "virtual").fields.get? key = (d.toRecord owner).fields.get? key := by
      simp only [toRecord, Dict.ofList, List.foldl_cons, List.foldl_nil, Dict.get?_insert,
        if_neg hlongname, if_neg hmemberof]
    cases path with
    | none => exact hrecord
    | some path =>
      rw [FileRuntime.markImport, Record.set, Dict.get?_insert, if_neg himportPath]
      exact hrecord
  cases path with
  | none => exact ⟨rfl, rfl, rfl, hfields, rfl⟩
  | some path => exact ⟨rfl, rfl, rfl, hfields, rfl⟩

end Scan

namespace FileRuntime

variable {code : String}

theorem sites_of_allBlank (h : Text.allBlank code = true) : Site.sites code.toList = [] := by
  rw [List.eq_nil_iff_forall_not_mem]
  intro site hsite
  obtain ⟨hin, hclause⟩ := Site.mem_sites_iff.mp hsite
  obtain ⟨c, hc, hblank⟩ := hclause.exists_not_blank
  have hmem : c ∈ code.toList := by
    rw [hin.text_eq]
    exact List.mem_append_left _ (List.mem_append_right _ hc)
  rw [Text.allBlank, List.all_eq_true] at h
  rw [h c hmem] at hblank
  cases hblank

theorem ast_eq (code : String) : ast code =
    .object [("declarations", .array ((Site.sites code.toList).map Site.toJson)),
      ("lines", .nat (Text.lineCount code.toList)), ("type", .string "Program")] := by
  have hall : (Declaration.ofCode code).map Declaration.toJson =
      (Site.sites code.toList).map Site.toJson := by
    rw [← List.forall₂_eq_eq_eq, List.forall₂_map_left_iff, List.forall₂_map_right_iff]
    exact (Declaration.ofCode_standsAt code).imp fun _ _ h => h.toJson_eq
  rw [ast, hall]

theorem declarationRecords_locate (code owner : String) (path : Option String) :
    List.Forall₂ (Record.Locates owner) ((declarationRecords code owner).map (markImport path))
      (Site.sites code.toList) := by
  rw [declarationRecords, List.map_map, List.forall₂_map_left_iff]
  exact (Declaration.ofCode_standsAt code).imp fun _ _ h => h.locates owner path

-- What is declared is an entity, never a file.
theorem isFileLike_of_locates {owner : String} {text : List Char} {records : List Record}
    (h : List.Forall₂ (Record.Locates owner) records (Site.sites text)) :
    ∀ record ∈ records, record.isFileLike = false := by
  have hfiles : List.Forall₂ (fun record (site : Site) =>
      record.isFileLike = false ∧ record.Locates owner site) records (Site.sites text) := by
    refine h.imp fun record site hlocates => ⟨?_, hlocates⟩
    rw [Record.isFileLike, hlocates.kind]
    rfl
  exact ((List.forall₂_and_left _ _).mp hfiles).1

-- A text has the same declarations as a file and as a fragment: those that are written in it, in
-- their order. The line that is told of one is that of its keyword, records and syntax tree agree
-- on it, and the lines increase up to the last one of the text. Nothing comes of a fragment exactly
-- when nothing is declared in it.
theorem declarations_positioned (code : String) :
    ∃ (sites : List Site) (fragments : List Record),
      (∀ site, site ∈ sites ↔ site.In code.toList) ∧
      (sites.Pairwise fun site later => site.line < later.line) ∧
      (∀ site ∈ sites, site.line ≤ Text.lineCount code.toList) ∧
      (∀ (tree : Tree) dir file hint, tree.readText file = .ok code →
        if Text.allBlank code then sites = [] ∧ parseFile tree dir file hint = .ok none
        else ∃ records,
          parseFile tree dir file hint =
            .ok (some ⟨fileRecord code (Path.relativeTo dir file) :: records,
              some (.object [("declarations", .array (sites.map Site.toJson)),
                ("lines", .nat (Text.lineCount code.toList)), ("type", .string "Program")])⟩) ∧
          List.Forall₂ (Record.Locates (Path.relativeTo dir file)) records sites ∧
          List.Forall₂ Record.Moved records fragments) ∧
      List.Forall₂ (Record.Locates "virtual") fragments sites ∧
      (∀ fragment ∈ fragments, fragment.isFileLike = false) ∧
      ∀ dir, parseCode dir code =
          .ok (if fragments.isEmpty then none else some ⟨fragments, none⟩) ∧
        (parseCode dir code = .ok none ↔ ∀ site : Site, ¬ site.In code.toList) := by
  have hfragments : List.Forall₂ (Record.Locates "virtual") (declarationRecords code "virtual")
      (Site.sites code.toList) := by
    have hlocate := declarationRecords_locate code "virtual" none
    rwa [show markImport none = id from rfl, List.map_id] at hlocate
  have hparse : ∀ dir, parseCode dir code =
      .ok (if (declarationRecords code "virtual").isEmpty then none
        else some ⟨declarationRecords code "virtual", none⟩) := by
    intro dir
    rw [parseCode]
    cases declarationRecords code "virtual" <;> rfl
  refine ⟨Site.sites code.toList, declarationRecords code "virtual", fun _ => Site.mem_sites_iff,
    Site.pairwise_line _, fun _ => Site.line_le_lineCount, fun tree dir file hint hread => ?_,
    hfragments, isFileLike_of_locates hfragments, fun dir => ⟨hparse dir, ?_⟩⟩
  · split
    next hblank =>
      refine ⟨sites_of_allBlank hblank, ?_⟩
      simp only [parseFile, readSource, hread, bind, Except.bind, hblank]
      rfl
    next hblank =>
      refine ⟨_, ?_, declarationRecords_locate code (Path.relativeTo dir file)
        (importPath? hint file), ?_⟩
      · rw [← ast_eq]
        simp only [parseFile, readSource, hread, bind, Except.bind, hblank]
        rfl
      · rw [declarationRecords, declarationRecords, List.map_map, List.forall₂_map_left_iff,
          List.forall₂_map_right_iff, List.forall₂_same]
        exact fun d _ => d.moved _ _
  · rw [hparse]
    have hnone : declarationRecords code "virtual" = [] ↔ Site.sites code.toList = [] := by
      rw [← List.length_eq_zero_iff, hfragments.length_eq, List.length_eq_zero_iff]
    rw [← List.isEmpty_iff, List.eq_nil_iff_forall_not_mem] at hnone
    simp only [Site.mem_sites_iff] at hnone
    rw [← hnone]
    cases (declarationRecords code "virtual").isEmpty <;> simp

def spacedSource : String :=
  "// \u00e9\r\nexport default async function* f() \x7b\x7d\r\n\tclass B \x7b\x7d"

theorem names_f : Declaration.Names "f" "() \x7b\x7d\r".toList := by
  refine ⟨⟨'f', [], rfl, rfl, nofun⟩, ?_⟩
  rintro c ⟨⟩
  rw [Declaration.isNamePart, Pattern.isWordChar_of_ascii (by decide), Pattern.isWordChar,
    if_pos rfl, Bool.or_eq_false_iff, Bool.eq_false_iff, ne_eq, Pattern.contains_asciiWord]
  decide

theorem in_spacedSource :
    Site.In spacedSource.toList ⟨"// \u00e9\r\nexport default async ".toList, "function", "f"⟩ := by
  have hgap : ∀ c ∈ [' '], Declaration.isGap c = true := List.forall_mem_singleton.mpr (by decide)
  have hindent : ∀ c ∈ ([] : List Char), Declaration.isGap c = true := List.forall_mem_nil _
  have hwords : ["export", "default", "async"] ∈ Declaration.modifiers := by decide
  have hkeyword : ("function*", "function") ∈ Declaration.keywords := by decide
  have hclause := Declaration.Clause.mk hindent hwords
    (.cons (by decide) hgap (.cons (by decide) hgap (.cons (by decide) hgap .nil))) hkeyword
    (by decide) hgap names_f
  have hspot : (⟨"// \u00e9\r\n".toList,
      "export default async function* f() \x7b\x7d\r".toList⟩ : Spot).In spacedSource.toList
        "\n\tclass B \x7b\x7d".toList :=
    ⟨by decide, by decide, .inr ⟨"// \u00e9\r".toList, by decide⟩, .inr ⟨_, rfl⟩⟩
  exact Site.In.mk hspot hclause

theorem spaced_source_positioned :
    ∃ (tree : Tree) (sites : List Site) (records : List Record) (ast : Json),
      tree.readText ⟨"/p/a.js"⟩ = .ok spacedSource ∧ Text.allBlank spacedSource = false ∧
      ⟨"// \u00e9\r\nexport default async ".toList, "function", "f"⟩ ∈ sites ∧
      parseFile tree ⟨"/p"⟩ ⟨"/p/a.js"⟩ {} =
        .ok (some ⟨fileRecord spacedSource "a.js" :: records, some ast⟩) ∧
      List.Forall₂ (Record.Locates "a.js") records sites := by
  let tree : Tree := ⟨[(["p"], .directory), (["p", "a.js"], .file spacedSource.toUTF8)]⟩
  have hfind : tree.find ⟨"/p/a.js"⟩ = .ok (["p", "a.js"], .file spacedSource.toUTF8) := rfl
  have hread := Tree.readText_of_find hfind
  have hblank : Text.allBlank spacedSource = false := by decide
  obtain ⟨sites, fragments, hsites, -, -, hfile, -⟩ := declarations_positioned spacedSource
  have hparse := hfile tree ⟨"/p"⟩ ⟨"/p/a.js"⟩ {} hread
  rw [if_neg (by rw [hblank]; decide)] at hparse
  obtain ⟨records, hparse, hrecords, -⟩ := hparse
  exact ⟨tree, sites, records, _, hread, hblank, (hsites _).mpr in_spacedSource, hparse, hrecords⟩

end FileRuntime

end DocPipeline
