import DocPipeline.Config.Settings
import DocPipeline.Proofs.Json.Canonical

namespace DocPipeline

namespace Json

variable {α β : Type} {key : String} {entries : List (String × Json)}

-- What is read from a list was read from one of its items.
theorem exists_of_mapM {read? : α → Option β} {items : List α} {values : List β}
    (h : items.mapM read? = some values) {value : β} (hv : value ∈ values) :
    ∃ item ∈ items, read? item = some value := by
  induction items generalizing values with
  | nil =>
    cases h
    cases hv
  | cons item rest ih =>
    rw [List.mapM_cons] at h
    obtain ⟨first, hfirst, h⟩ := Option.bind_eq_some_iff.mp h
    obtain ⟨others, hothers, h⟩ := Option.bind_eq_some_iff.mp h
    cases h
    rcases List.mem_cons.mp hv with rfl | hv
    · exact ⟨item, List.mem_cons_self, hfirst⟩
    · obtain ⟨found, hfound, hread⟩ := ih hothers hv
      exact ⟨found, List.mem_cons_of_mem _ hfound, hread⟩

theorem isCanonical_strings (items : List String) : (strings items).IsCanonical := by
  refine .array fun item hitem => ?_
  obtain ⟨text, _, rfl⟩ := List.mem_map.mp hitem
  exact .string text

theorem asStrings?_strings (items : List String) : (strings items).asStrings? = some items :=
  mapM_eq_some_of_mem fun _ _ => rfl

theorem asString?_canonical (text : String) : (string text).canonical.asString? = some text := rfl

theorem asBool?_canonical (b : Bool) : (bool b).canonical.asBool? = some b := rfl

theorem optional?_string (text : String) :
    optional? asString? (string text).canonical = some (some text) := rfl

theorem asStrings?_canonical (items : List String) :
    (strings items).canonical.asStrings? = some items := by
  rw [(isCanonical_strings items).canonical_eq, asStrings?_strings]

theorem optional?_strings (items : List String) :
    optional? asStrings? (strings items).canonical = some (some items) := by
  rw [(isCanonical_strings items).canonical_eq]
  change (strings items).asStrings?.map some = _
  rw [asStrings?_strings, Option.map_some]

theorem lookup_entryOf (key other : String) (write : α → Json) (value : Option α) :
    lookup other (entryOf key write value) =
      if key = other then value.map write else none := by
  cases value <;> simp [entryOf, lookup]

theorem keys_entryOf (key : String) (write : α → Json) (value : Option α) :
    ((entryOf key write value).map Prod.fst).Sublist [key] := by
  cases value <;> simp [entryOf]

-- A field that is always written.
theorem fieldD?_canonical {read? : Json → Option α} {default value : α} {written : Json}
    (hd : (entries.map Prod.fst).Nodup) (h : lookup key entries = some written)
    (hread : read? written.canonical = some value) :
    fieldD? (sortEntries (canonicalEntries entries)) key read? default = some value := by
  rw [fieldD?, lookup_canonical hd, h]
  exact hread

-- A field that is written if it is set.
theorem fieldD?_canonical_option {read? : Json → Option α} {write : α → Json} {value : Option α}
    (hd : (entries.map Prod.fst).Nodup) (h : lookup key entries = value.map write)
    (hread : ∀ a ∈ value, optional? read? (write a).canonical = some (some a)) :
    fieldD? (sortEntries (canonicalEntries entries)) key (optional? read?) none = some value := by
  rw [fieldD?, lookup_canonical hd, h]
  cases value with
  | none => rfl
  | some a => exact hread a rfl

-- What options may be: they are not null, which would read as none.
def IsOptions (options : Option Json) : Prop :=
  ∀ value ∈ options, value ≠ null ∧ value.IsCanonical

theorem optional?_of_isOptions {options : Option Json} (h : IsOptions options) :
    ∀ value ∈ options, optional? some value.canonical = some (some value) := by
  intro value hvalue
  obtain ⟨hnull, hcanonical⟩ := h value hvalue
  rw [hcanonical.canonical_eq]
  cases value with
  | null => exact absurd rfl hnull
  | _ => rfl

-- What was read at a key is the default, or was read from a canonical value.
theorem holds_of_fieldD? {P : α → Prop} {read? : Json → Option α} {default a : α}
    (hc : ∀ entry ∈ entries, entry.2.IsCanonical) (h : fieldD? entries key read? default = some a)
    (hdefault : P default)
    (hread : ∀ value : Json, value.IsCanonical → read? value = some a → P a) : P a := by
  rw [fieldD?] at h
  cases hl : lookup key entries with
  | none =>
    rw [hl] at h
    cases h
    exact hdefault
  | some value =>
    rw [hl] at h
    exact hread value (hc _ (mem_of_lookup hl)) h

theorem mem_of_optional? {read? : Json → Option α} {value : Json} {found : Option α}
    (h : optional? read? value = some found) :
    ∀ a ∈ found, value ≠ null ∧ read? value = some a := by
  intro a ha
  cases ha
  cases value with
  | null => cases h
  | _ =>
    obtain ⟨b, hb, hsome⟩ := Option.map_eq_some_iff.mp h
    cases hsome
    exact ⟨nofun, hb⟩

theorem isOptions_of_fieldD? {options : Option Json}
    (hc : ∀ entry ∈ entries, entry.2.IsCanonical)
    (h : fieldD? entries key (optional? some) none = some options) : IsOptions options := by
  refine holds_of_fieldD? hc h nofun fun value hvalue hread a ha => ?_
  obtain ⟨hnull, hsome⟩ := mem_of_optional? hread a ha
  cases hsome
  exact ⟨hnull, hvalue⟩

-- The fields that are read are some of those that are written.
theorem isCanonical_of_fields? {names : List String} {value : Json} (hc : value.IsCanonical)
    (h : fields? names value = some entries) : ∀ entry ∈ entries, entry.2.IsCanonical := by
  intro entry hentry
  cases hc with
  | object _ hvalues =>
    cases h
    exact hvalues entry hentry
  | array hitems =>
    rw [fields?] at h
    split at h
    · cases h
      exact hitems _ (List.of_mem_zip hentry).2
    · cases h
  | _ => cases h

end Json

namespace SourceSpec

theorem optional?_toJson (source : SourceSpec) :
    Json.optional? ofJson? source.toJson.canonical = some (some source) := by
  cases source with
  | one pattern => rfl
  | many patterns =>
    have hread : ofJson? (Json.strings patterns) = some (many patterns) := by
      change (Json.strings patterns).asStrings?.map many = _
      rw [Json.asStrings?_strings, Option.map_some]
    rw [toJson, (Json.isCanonical_strings patterns).canonical_eq]
    change (ofJson? (Json.strings patterns)).map some = _
    rw [hread, Option.map_some]

end SourceSpec

namespace CollaboratorSpec

def Sound (spec : CollaboratorSpec) : Prop :=
  match spec with
  | bare _ => True
  | described _ options => Json.IsOptions options

theorem sound_of_ofJson? {value : Json} {spec : CollaboratorSpec} (hc : value.IsCanonical)
    (h : ofJson? value = some spec) : spec.Sound := by
  unfold ofJson? at h
  split at h
  · cases h
    trivial
  · obtain ⟨entries, hentries, h⟩ := Option.bind_eq_some_iff.mp h
    obtain ⟨name, _, h⟩ := Option.bind_eq_some_iff.mp h
    obtain ⟨options, hoptions, h⟩ := Option.bind_eq_some_iff.mp h
    cases h
    exact Json.isOptions_of_fieldD? (Json.isCanonical_of_fields? hc hentries) hoptions

theorem toJson_described (name : String) (options : Option Json) :
    (described name options).toJson =
      .object ([("name", .string name)] ++ entryOf "options" id options) := by
  cases options <;> rfl

theorem nodup_described (name : String) (options : Option Json) :
    (([("name", Json.string name)] ++ entryOf "options" id options).map Prod.fst).Nodup := by
  have hkeys : (([("name", Json.string name)] ++ entryOf "options" id options).map
      Prod.fst).Sublist ["name", "options"] := by
    rw [List.map_append]
    exact (List.Sublist.refl ["name"]).append (Json.keys_entryOf _ _ _)
  exact hkeys.nodup (by decide)

theorem ofJson?_toJson {spec : CollaboratorSpec} (h : spec.Sound) :
    ofJson? spec.toJson.canonical = some spec := by
  cases spec with
  | bare name => rfl
  | described name options =>
    have hd := nodup_described name options
    have hname := Json.lookup_canonical hd "name"
    have hoptions : Json.lookup "options" ([("name", .string name)] ++
        entryOf "options" id options) = options.map id := by
      simp [Json.lookup_entryOf, Json.lookup]
    rw [toJson_described, Json.canonical]
    simp only [ofJson?, Json.fields?, Option.bind_eq_bind, Option.bind_some, hname]
    rw [Json.fieldD?_canonical_option hd hoptions (Json.optional?_of_isOptions h)]
    rfl

theorem optional?_toJson {spec : CollaboratorSpec} (h : spec.Sound) :
    Json.optional? ofJson? spec.toJson.canonical = some (some spec) := by
  have hread := ofJson?_toJson h
  cases spec with
  | bare name => rfl
  | described name options =>
    rw [toJson_described, Json.canonical] at hread ⊢
    change (ofJson? (.object _)).map some = _
    rw [hread, Option.map_some]

end CollaboratorSpec

namespace LogLevel

theorem ofJson?_toJson (level : LogLevel) : ofJson? level.toJson.canonical = some level := by
  cases level <;> rfl

end LogLevel

namespace TestSettings

def written (test : TestSettings) : List (String × Json) :=
  [("type", .string test.type)] ++ entryOf "source" SourceSpec.toJson test.source ++
    entryOf "sourceFiles" Json.strings test.sourceFiles ++
    [("includes", .strings test.includes), ("excludes", .strings test.excludes)]

theorem keys_written (test : TestSettings) : (test.written.map Prod.fst).Sublist keys := by
  simp only [written, List.map_append]
  exact (((List.Sublist.refl ["type"]).append (Json.keys_entryOf _ _ _)).append
    (Json.keys_entryOf _ _ _)).append (.refl _)

theorem optional?_toJson (test : TestSettings) :
    Json.optional? ofJson? test.toJson.canonical = some (some test) := by
  have hd := test.keys_written.nodup (by decide)
  have hread : ofJson? (.object (Json.sortEntries (Json.canonicalEntries test.written))) =
      some test := by
    simp only [ofJson?, Json.fields?, Option.bind_eq_bind, Option.bind_eq_some_iff]
    refine ⟨_, rfl, test.type, Json.fieldD?_canonical hd ?_ (Json.asString?_canonical _),
      test.source, Json.fieldD?_canonical_option hd ?_ fun source _ => source.optional?_toJson,
      test.sourceFiles,
      Json.fieldD?_canonical_option hd ?_ fun files _ => Json.optional?_strings files,
      test.includes, Json.fieldD?_canonical hd ?_ (Json.asStrings?_canonical _),
      test.excludes, Json.fieldD?_canonical hd ?_ (Json.asStrings?_canonical _), rfl⟩
    all_goals simp [written, Json.lookup_append, Json.lookup_entryOf, Json.lookup]
  change (ofJson? (.object _)).map some = _
  exact congrArg (Option.map some) hread

end TestSettings

namespace Settings

-- What the settings that are read from an object are: at each field what was read there.
structure Reads (entries : List (String × Json)) (s : Settings) : Prop where
  source : Json.fieldD? entries "source" (Json.optional? SourceSpec.ofJson?) none = some s.source
  sourceFiles : Json.fieldD? entries "sourceFiles" (Json.optional? Json.asStrings?) none =
    some s.sourceFiles
  destination : Json.fieldD? entries "destination" Json.asString? "./docs" = some s.destination
  includes : Json.fieldD? entries "includes" Json.asStrings? [defaultInclude] = some s.includes
  excludes : Json.fieldD? entries "excludes" Json.asStrings? [] = some s.excludes
  test : Json.fieldD? entries "test" (Json.optional? TestSettings.ofJson?) none = some s.test
  runtime : Json.fieldD? entries "runtime" (Json.optional? CollaboratorSpec.ofJson?) none =
    some s.runtime
  runtimeOptions : Json.fieldD? entries "runtimeOptions" (Json.optional? some) none =
    some s.runtimeOptions
  publisher : Json.fieldD? entries "publisher" CollaboratorSpec.ofJson? (.bare defaultPublisher) =
    some s.publisher
  publisherOptions : Json.fieldD? entries "publisherOptions" (Json.optional? some) none =
    some s.publisherOptions
  plugins : Json.fieldD? entries "plugins" specs? [] = some s.plugins
  package : Json.fieldD? entries "package" Json.asString? "./package.json" = some s.package
  includeSource : Json.fieldD? entries "includeSource" Json.asBool? true = some s.includeSource
  emptyDestination : Json.fieldD? entries "emptyDestination" Json.asBool? false =
    some s.emptyDestination
  docCoverage : Json.fieldD? entries "docCoverage" Json.asBool? true = some s.docCoverage
  fullStackTrace : Json.fieldD? entries "fullStackTrace" Json.asBool? false =
    some s.fullStackTrace
  logLevel : Json.fieldD? entries "logLevel" LogLevel.ofJson? .info = some s.logLevel
  title : Json.fieldD? entries "title" (Json.optional? Json.asString?) none = some s.title
  index : Json.fieldD? entries "index" Json.asString? "./README.md" = some s.index
  extra : s.extra = entries.filter fun entry => !keys.contains entry.1

section Reading

variable {entries : List (String × Json)} {s : Settings}

theorem Reads.ofJson?_eq (h : Reads entries s) : ofJson? (.object entries) = some s := by
  simp only [ofJson?, h.source, h.sourceFiles, h.destination, h.includes, h.excludes, h.test,
    h.runtime, h.runtimeOptions, h.publisher, h.publisherOptions, h.plugins, h.package,
    h.includeSource, h.emptyDestination, h.docCoverage, h.fullStackTrace, h.logLevel, h.title,
    h.index, ← h.extra, Option.bind_eq_bind, Option.bind_some]
  rfl

theorem reads_of_ofJson? (h : ofJson? (.object entries) = some s) : Reads entries s := by
  obtain ⟨_, hsource, h⟩ := Option.bind_eq_some_iff.mp h
  obtain ⟨_, hsourceFiles, h⟩ := Option.bind_eq_some_iff.mp h
  obtain ⟨_, hdestination, h⟩ := Option.bind_eq_some_iff.mp h
  obtain ⟨_, hincludes, h⟩ := Option.bind_eq_some_iff.mp h
  obtain ⟨_, hexcludes, h⟩ := Option.bind_eq_some_iff.mp h
  obtain ⟨_, htest, h⟩ := Option.bind_eq_some_iff.mp h
  obtain ⟨_, hruntime, h⟩ := Option.bind_eq_some_iff.mp h
  obtain ⟨_, hruntimeOptions, h⟩ := Option.bind_eq_some_iff.mp h
  obtain ⟨_, hpublisher, h⟩ := Option.bind_eq_some_iff.mp h
  obtain ⟨_, hpublisherOptions, h⟩ := Option.bind_eq_some_iff.mp h
  obtain ⟨_, hplugins, h⟩ := Option.bind_eq_some_iff.mp h
  obtain ⟨_, hpackage, h⟩ := Option.bind_eq_some_iff.mp h
  obtain ⟨_, hincludeSource, h⟩ := Option.bind_eq_some_iff.mp h
  obtain ⟨_, hemptyDestination, h⟩ := Option.bind_eq_some_iff.mp h
  obtain ⟨_, hdocCoverage, h⟩ := Option.bind_eq_some_iff.mp h
  obtain ⟨_, hfullStackTrace, h⟩ := Option.bind_eq_some_iff.mp h
  obtain ⟨_, hlogLevel, h⟩ := Option.bind_eq_some_iff.mp h
  obtain ⟨_, htitle, h⟩ := Option.bind_eq_some_iff.mp h
  obtain ⟨_, hindex, h⟩ := Option.bind_eq_some_iff.mp h
  cases h
  exact ⟨hsource, hsourceFiles, hdestination, hincludes, hexcludes, htest, hruntime,
    hruntimeOptions, hpublisher, hpublisherOptions, hplugins, hpackage, hincludeSource,
    hemptyDestination, hdocCoverage, hfullStackTrace, hlogLevel, htitle, hindex, rfl⟩

end Reading

-- The entries of the fields; those of other keys come after them.
def written (s : Settings) : List (String × Json) :=
  entryOf "source" SourceSpec.toJson s.source ++
    entryOf "sourceFiles" Json.strings s.sourceFiles ++
    [("destination", .string s.destination), ("includes", .strings s.includes),
     ("excludes", .strings s.excludes)] ++
    entryOf "test" TestSettings.toJson s.test ++
    entryOf "runtime" CollaboratorSpec.toJson s.runtime ++
    entryOf "runtimeOptions" id s.runtimeOptions ++
    [("publisher", s.publisher.toJson)] ++
    entryOf "publisherOptions" id s.publisherOptions ++
    [("plugins", .array (s.plugins.map CollaboratorSpec.toJson)), ("package", .string s.package),
     ("includeSource", .bool s.includeSource), ("emptyDestination", .bool s.emptyDestination),
     ("docCoverage", .bool s.docCoverage), ("fullStackTrace", .bool s.fullStackTrace),
     ("logLevel", s.logLevel.toJson)] ++
    entryOf "title" Json.string s.title ++
    [("index", .string s.index)]

-- What holds of settings that were read from a canonical value.
structure Sound (s : Settings) : Prop where
  runtime : ∀ spec ∈ s.runtime, spec.Sound
  runtimeOptions : Json.IsOptions s.runtimeOptions
  publisher : s.publisher.Sound
  publisherOptions : Json.IsOptions s.publisherOptions
  plugins : ∀ spec ∈ s.plugins, spec.Sound
  increasing : Json.Increasing s.extra
  extra : ∀ entry ∈ s.extra, entry.2.IsCanonical
  unknown : ∀ entry ∈ s.extra, entry.1 ∉ keys

theorem toJson_eq (s : Settings) : s.toJson = .object (s.written ++ s.extra) := rfl

theorem keys_written (s : Settings) : (s.written.map Prod.fst).Sublist keys := by
  simp only [written, List.map_append]
  exact ((((((((((Json.keys_entryOf _ _ _).append (Json.keys_entryOf _ _ _)).append
    (.refl ["destination", "includes", "excludes"])).append (Json.keys_entryOf _ _ _)).append
    (Json.keys_entryOf _ _ _)).append (Json.keys_entryOf _ _ _)).append
    (.refl ["publisher"])).append (Json.keys_entryOf _ _ _)).append (.refl _)).append
    (Json.keys_entryOf _ _ _)).append (.refl _)

theorem Sound.nodup {s : Settings} (h : s.Sound) :
    ((s.written ++ s.extra).map Prod.fst).Nodup := by
  rw [List.map_append]
  refine List.nodup_append.mpr ⟨s.keys_written.nodup (by decide), h.increasing.nodup, ?_⟩
  rintro key hwritten _ hextra rfl
  obtain ⟨entry, hentry, rfl⟩ := List.mem_map.mp hextra
  exact h.unknown entry hentry (s.keys_written.subset hwritten)

theorem lookup_written_eq_none (s : Settings) {key : String} (hk : key ∉ keys) :
    Json.lookup key s.written = none := by
  rw [Json.lookup_eq_none_iff]
  rintro entry hentry rfl
  exact hk (s.keys_written.subset (List.mem_map_of_mem hentry))

theorem Sound.lookup_extra_eq_none {s : Settings} (h : s.Sound) {key : String} (hk : key ∈ keys) :
    Json.lookup key s.extra = none := by
  rw [Json.lookup_eq_none_iff]
  rintro entry hentry rfl
  exact h.unknown entry hentry hk

-- At the key of a field nothing else is found.
theorem Sound.lookup_field {s : Settings} (h : s.Sound) {key : String} (hk : key ∈ keys) :
    Json.lookup key (s.written ++ s.extra) = Json.lookup key s.written := by
  rw [Json.lookup_append, h.lookup_extra_eq_none hk, Option.or_none]

theorem specs?_canonical {specs : List CollaboratorSpec} (h : ∀ spec ∈ specs, spec.Sound) :
    specs? (Json.array (specs.map CollaboratorSpec.toJson)).canonical = some specs := by
  rw [Json.canonical, Json.canonicalItems_eq_map, List.map_map]
  exact Json.mapM_eq_some_of_mem fun spec hspec => CollaboratorSpec.ofJson?_toJson (h spec hspec)

theorem sound_of_specs? {value : Json} {specs : List CollaboratorSpec} (hc : value.IsCanonical)
    (h : specs? value = some specs) : ∀ spec ∈ specs, spec.Sound := by
  intro spec hspec
  cases hc with
  | array hitems =>
    obtain ⟨item, hitem, hread⟩ := Json.exists_of_mapM h hspec
    exact CollaboratorSpec.sound_of_ofJson? (hitems item hitem) hread
  | _ => cases h

theorem sound_of_ofJson? {value : Json} {s : Settings} (hc : value.IsCanonical)
    (h : ofJson? value = some s) : s.Sound := by
  cases hc with
  | @object entries hincreasing hvalues =>
    have hreads := reads_of_ofJson? h
    have hruntime : ∀ spec ∈ s.runtime, spec.Sound :=
      Json.holds_of_fieldD? (P := fun found => ∀ spec ∈ found, CollaboratorSpec.Sound spec)
        hvalues hreads.runtime (by simp) fun value hvalue hread spec hspec =>
          CollaboratorSpec.sound_of_ofJson? hvalue (Json.mem_of_optional? hread spec hspec).2
    have hpublisher : s.publisher.Sound :=
      Json.holds_of_fieldD? hvalues hreads.publisher trivial fun _ =>
        CollaboratorSpec.sound_of_ofJson?
    have hplugins : ∀ spec ∈ s.plugins, spec.Sound :=
      Json.holds_of_fieldD? (P := fun found => ∀ spec ∈ found, CollaboratorSpec.Sound spec)
        hvalues hreads.plugins (by simp) fun _ => sound_of_specs?
    have hextra : ∀ entry ∈ s.extra, entry ∈ entries ∧ entry.1 ∉ keys := by
      rw [hreads.extra]
      simp [List.mem_filter]
    exact
      { runtime := hruntime
        runtimeOptions := Json.isOptions_of_fieldD? hvalues hreads.runtimeOptions
        publisher := hpublisher
        publisherOptions := Json.isOptions_of_fieldD? hvalues hreads.publisherOptions
        plugins := hplugins
        increasing := by rw [hreads.extra]; exact hincreasing.filter _
        extra := fun entry hentry => hvalues entry (hextra entry hentry).1
        unknown := fun entry hentry => (hextra entry hentry).2 }
  | _ => cases h

-- The other keys are read as they were written.
theorem Sound.filter_extra {s : Settings} (h : s.Sound) :
    (Json.sortEntries (Json.canonicalEntries (s.written ++ s.extra))).filter
      (fun entry => !keys.contains entry.1) = s.extra := by
  refine ((Json.increasing_sortEntries _).filter _).ext h.increasing fun key => ?_
  rw [Json.lookup_filter (fun key => !keys.contains key), Json.lookup_canonical h.nodup,
    Json.lookup_append]
  by_cases hk : key ∈ keys
  · rw [h.lookup_extra_eq_none hk, if_neg (by simpa using hk)]
  · rw [s.lookup_written_eq_none hk, Option.none_or, if_pos (by simpa using hk)]
    cases hextra : Json.lookup key s.extra with
    | none => rfl
    | some value =>
      rw [Option.map_some, (h.extra _ (Json.mem_of_lookup hextra)).canonical_eq]

-- The JSON form reads as the settings that it was written from.
theorem ofJson?_toJson {s : Settings} (h : s.Sound) : ofJson? s.toJson.canonical = some s := by
  have hd := h.nodup
  have hfield := fun key (hk : key ∈ keys) => h.lookup_field hk
  rw [toJson_eq, Json.canonical]
  refine Reads.ofJson?_eq
    { source := Json.fieldD?_canonical_option hd ?_ fun source _ => source.optional?_toJson
      sourceFiles := Json.fieldD?_canonical_option hd ?_ fun files _ => Json.optional?_strings files
      destination := Json.fieldD?_canonical hd ?_ (Json.asString?_canonical _)
      includes := Json.fieldD?_canonical hd ?_ (Json.asStrings?_canonical _)
      excludes := Json.fieldD?_canonical hd ?_ (Json.asStrings?_canonical _)
      test := Json.fieldD?_canonical_option hd ?_ fun test _ => test.optional?_toJson
      runtime := Json.fieldD?_canonical_option hd ?_ fun spec hspec =>
        CollaboratorSpec.optional?_toJson (h.runtime spec hspec)
      runtimeOptions := Json.fieldD?_canonical_option hd ?_
        (Json.optional?_of_isOptions h.runtimeOptions)
      publisher := Json.fieldD?_canonical hd ?_ (CollaboratorSpec.ofJson?_toJson h.publisher)
      publisherOptions := Json.fieldD?_canonical_option hd ?_
        (Json.optional?_of_isOptions h.publisherOptions)
      plugins := Json.fieldD?_canonical hd ?_ (specs?_canonical h.plugins)
      package := Json.fieldD?_canonical hd ?_ (Json.asString?_canonical _)
      includeSource := Json.fieldD?_canonical hd ?_ (Json.asBool?_canonical _)
      emptyDestination := Json.fieldD?_canonical hd ?_ (Json.asBool?_canonical _)
      docCoverage := Json.fieldD?_canonical hd ?_ (Json.asBool?_canonical _)
      fullStackTrace := Json.fieldD?_canonical hd ?_ (Json.asBool?_canonical _)
      logLevel := Json.fieldD?_canonical hd ?_ (LogLevel.ofJson?_toJson _)
      title := Json.fieldD?_canonical_option hd ?_ fun title _ => Json.optional?_string title
      index := Json.fieldD?_canonical hd ?_ (Json.asString?_canonical _)
      extra := h.filter_extra.symm }
  all_goals
    rw [hfield _ (by decide)]
    simp [written, Json.lookup_append, Json.lookup_entryOf, Json.lookup]

end Settings

end DocPipeline
