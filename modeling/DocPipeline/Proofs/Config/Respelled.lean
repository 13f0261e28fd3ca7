import DocPipeline.Proofs.Config.Differs
import DocPipeline.Proofs.Config.Plan
import DocPipeline.Proofs.Discovery.Selection

namespace DocPipeline

open DocPipeline.Discovery (Role)

namespace SourceSpec

variable {spec other : SourceSpec} {one two : Json}

-- The written forms of two sources.
def Written (spec other : SourceSpec) (one two : Json) : Prop :=
  one = spec.toJson ∧ two = other.toJson

-- Test settings that differ in the source, as an object or as an array of their fields.
inductive InTests (spec other : SourceSpec) : Json → Json → Prop where
  | object {entries more : List (String × Json)}
    (h : Json.Differs "source" (Written spec other) entries more) :
    InTests spec other (.object entries) (.object more)
  | array (type : Json) (rest : List Json) :
    InTests spec other (.array (type :: spec.toJson :: rest))
      (.array (type :: other.toJson :: rest))

theorem overlays_written (spec other : SourceSpec) : Json.Overlays (Written spec other) := by
  have hleaf : ∀ spec : SourceSpec, spec.toJson.isObject = false := by
    intro spec
    cases spec <;> rfl
  apply Json.overlays_of_leaf
  rintro _ _ ⟨rfl, rfl⟩
  exact ⟨hleaf spec, hleaf other⟩

theorem overlays_inTests (spec other : SourceSpec) : Json.Overlays (InTests spec other) := by
  intro base one two hbase h
  cases h with
  | object hd =>
    obtain ⟨merged, merged', hmerged, hmerged', hd'⟩ := hd.merge (overlays_written spec other) hbase
    rw [hmerged, hmerged']
    exact .object hd'
  | array type rest =>
    rw [Json.merge_of_leaf base rfl, Json.merge_of_leaf base rfl]
    exact .array type rest

theorem Written.symm (h : Written spec other one two) : Written other spec two one :=
  ⟨h.2, h.1⟩

theorem InTests.symm (h : InTests spec other one two) : InTests other spec two one := by
  cases h with
  | object hd => exact .object (hd.symm fun _ _ => Written.symm)
  | array type rest => exact .array type rest

theorem optional?_written (spec : SourceSpec) :
    Json.optional? ofJson? spec.toJson = some (some spec) := by
  have hcanonical : spec.toJson.canonical = spec.toJson := by
    cases spec with
    | one pattern => rfl
    | many patterns => exact (Json.isCanonical_strings patterns).canonical_eq
  rw [← hcanonical]
  exact spec.optional?_toJson

theorem fieldD?_of_apart {key : String} {entries more : List (String × Json)}
    (h : Json.Apart key (Written spec other) entries more) :
    Json.fieldD? entries key (Json.optional? ofJson?) none = some (some spec) ∧
      Json.fieldD? more key (Json.optional? ofJson?) none = some (some other) := by
  obtain ⟨_, _, hone, htwo, rfl, rfl⟩ := h.held
  rw [Json.fieldD?, hone, Json.fieldD?, htwo]
  exact ⟨spec.optional?_written, other.optional?_written⟩

-- In both forms the fields are the same, but for the source.
theorem InTests.fields? (h : InTests spec other one two) :
    (Json.fields? TestSettings.keys one = none ∧ Json.fields? TestSettings.keys two = none) ∨
    ∃ entries more, Json.fields? TestSettings.keys one = some entries ∧
      Json.fields? TestSettings.keys two = some more ∧
      Json.Apart "source" (Written spec other) entries more := by
  cases h with
  | object hd => exact .inr ⟨_, _, rfl, rfl, hd.toApart⟩
  | array type rest =>
    simp only [Json.fields?, List.length_cons]
    by_cases hlength : rest.length + 1 + 1 ≤ TestSettings.keys.length
    · refine .inr ⟨_, _, if_pos hlength, if_pos hlength, ⟨_, _, rfl, rfl, rfl, rfl⟩, ?_⟩
      intro k hk
      simp only [TestSettings.keys, List.zip_cons_cons, Json.lookup, if_neg hk.symm]
    · exact .inl ⟨if_neg hlength, if_neg hlength⟩

end SourceSpec

open SourceSpec (Written InTests)

def TestSettings.withSource (spec : SourceSpec) (test : TestSettings) : TestSettings :=
  { test with source := some spec }

theorem TestSettings.ofJson?_inTests {spec other : SourceSpec} {one two : Json}
    (h : InTests spec other one two) : ofJson? two = (ofJson? one).map (withSource other) ∧
      ∀ test, ofJson? one = some test → test.source = some spec := by
  obtain ⟨hone, htwo⟩ | ⟨entries, more, hone, htwo, hd⟩ := h.fields?
  · simp [ofJson?, hone, htwo]
  · obtain ⟨hspec, hother⟩ := SourceSpec.fieldD?_of_apart hd
    constructor
    · simp only [ofJson?, hone, htwo, Option.bind_eq_bind, Option.bind_some, hspec, hother,
        hd.fieldD? _ _ (by decide : "type" ≠ "source"),
        hd.fieldD? _ _ (by decide : "sourceFiles" ≠ "source"),
        hd.fieldD? _ _ (by decide : "includes" ≠ "source"),
        hd.fieldD? _ _ (by decide : "excludes" ≠ "source"), Option.map_bind, Function.comp_def]
      rfl
    · intro test htest
      simp only [ofJson?, hone, Option.bind_eq_bind, Option.bind_some, hspec,
        Option.bind_eq_some_iff] at htest
      obtain ⟨_, -, _, -, _, -, _, -, hsome⟩ := htest
      cases hsome
      rfl

theorem TestSettings.optional?_inTests {spec other : SourceSpec} {one two : Json}
    {test : Option TestSettings} (h : InTests spec other one two)
    (hread : Json.optional? ofJson? one = some test) :
    Json.optional? ofJson? two = some (test.map (withSource other)) ∧
      test.bind TestSettings.source = some spec := by
  have hoptional : Json.optional? ofJson? one = (ofJson? one).map some ∧
      Json.optional? ofJson? two = (ofJson? two).map some := by
    cases h <;> exact ⟨rfl, rfl⟩
  obtain ⟨hmap, hsource⟩ := ofJson?_inTests h
  rw [hoptional.1] at hread
  obtain ⟨found, hfound, rfl⟩ := Option.map_eq_some_iff.mp hread
  rw [hoptional.2, hmap, hfound]
  exact ⟨rfl, hsource found hfound⟩

namespace Discovery.Role

-- Where a configuration has the source, and the forms that two sources take there.
def key : Role → String
  | main => "source"
  | tests => "test"

def Forms (spec other : SourceSpec) : Role → Json → Json → Prop
  | main => Written spec other
  | tests => InTests spec other

-- The failure of a configuration that has neither a source nor a list of files.
def missing (role : Role) : Failure :=
  .invalidConfig ("'" ++ role.label ++ "' or '" ++ role.label ++ "Files' is not defined")

theorem key_mem (role : Role) : role.key ∈ ["source", "test", "includeSource"] := by
  cases role <;> decide

theorem overlays_forms (spec other : SourceSpec) (role : Role) :
    Json.Overlays (role.Forms spec other) := by
  cases role with
  | main => exact SourceSpec.overlays_written spec other
  | tests => exact SourceSpec.overlays_inTests spec other

theorem Forms.symm {spec other : SourceSpec} {role : Role} {one two : Json}
    (h : role.Forms spec other one two) : role.Forms other spec two one := by
  cases role with
  | main => exact Written.symm h
  | tests => exact InTests.symm h

end Discovery.Role

namespace Settings

variable {tree : Tree} {dir : Path} {role : Role} {spec other : SourceSpec}
  {entries more : List (String × Json)} {s : Settings}

def sourceOf (s : Settings) : Role → Option SourceSpec
  | .main => s.source
  | .tests => s.test.bind TestSettings.source

def filesOf (s : Settings) : Role → Option (List String)
  | .main => s.sourceFiles
  | .tests => s.test.bind TestSettings.sourceFiles

-- The same settings, with a source put in the place of the one that they have.
def withSource (spec : SourceSpec) (s : Settings) : Role → Settings
  | .main => { s with source := some spec }
  | .tests => { s with test := s.test.map (TestSettings.withSource spec) }

section Reading

theorem Reads.inTests (h : Reads entries s)
    (hd : Json.Differs "test" (InTests spec other) entries more) :
    Json.fieldD? more "test" (Json.optional? TestSettings.ofJson?) none =
        some (s.test.map (TestSettings.withSource other)) ∧
      s.test.bind TestSettings.source = some spec := by
  obtain ⟨one, two, hone, htwo, hforms⟩ := hd.held
  have htest := h.test
  rw [Json.fieldD?, hone] at htest
  rw [Json.fieldD?, htwo]
  exact TestSettings.optional?_inTests hforms htest

theorem Reads.sourceOf (h : Reads entries s)
    (hd : Json.Differs role.key (role.Forms spec other) entries more) :
    s.sourceOf role = some spec := by
  cases role with
  | main => exact Option.some.inj (h.source.symm.trans (SourceSpec.fieldD?_of_apart hd.toApart).1)
  | tests => exact (h.inTests hd).2

theorem Reads.withSource (h : Reads entries s)
    (hd : Json.Differs role.key (role.Forms spec other) entries more) :
    Reads more (s.withSource other role) := by
  cases role with
  | main =>
    exact h.differs hd (by decide) (SourceSpec.fieldD?_of_apart hd.toApart).2
      ((hd.fieldD? _ _ (by decide)).trans h.test)
      ((hd.fieldD? _ _ (by decide)).trans h.includeSource)
  | tests =>
    exact h.differs hd (by decide) ((hd.fieldD? _ _ (by decide)).trans h.source) (h.inTests hd).1
      ((hd.fieldD? _ _ (by decide)).trans h.includeSource)

theorem ofJson?_withSource (hd : Json.Differs role.key (role.Forms spec other) entries more) :
    ofJson? (.object more) = (ofJson? (.object entries)).map (·.withSource other role) :=
  ofJson?_map (fun _ h => h.withSource hd)
    fun _ h => h.withSource (hd.symm fun _ _ => Role.Forms.symm)

end Reading

section Checks

-- The checks of the names of collaborators, which come before those of the test settings.
def checkNames (s : Settings) : Except Failure Unit :=
  s.checkRuntime >>= fun _ => checkName s.publisher "publisher" >>= fun _ =>
    s.plugins.forM fun spec => checkName spec "plugins"

theorem validate_eq_checkNames (s : Settings) :
    s.validate = s.checkNames >>= fun _ => s.checkTests := by
  simp only [validate_eq, checkNames, bind_assoc]

theorem checkNames_withSource (s : Settings) (spec : SourceSpec) (role : Role) :
    (s.withSource spec role).checkNames = s.checkNames := by
  cases role <;> rfl

theorem lacksSource_some (spec : SourceSpec) (files : Option (List String)) :
    lacksSource (some spec) files = (files.isNone && spec.isEmpty) := by
  rw [lacksSource, Option.all_some]

theorem lacksSource_of_isEmpty (h : spec.isEmpty = false) (files : Option (List String)) :
    lacksSource (some spec) files = false := by
  rw [lacksSource_some, h, Bool.and_false]

theorem lacksSource_of_listed {files : Option (List String)}
    (h : spec.isEmpty = true → files.isSome = true) : lacksSource (some spec) files = false := by
  cases hempty : spec.isEmpty with
  | false => exact lacksSource_of_isEmpty hempty files
  | true => rw [lacksSource_some, Option.isNone_eq_false_iff.mpr (h hempty), Bool.false_and]

theorem checkTest_of_source {test : TestSettings} (ht : test.type ≠ "")
    (hs : lacksSource test.source test.sourceFiles = false) : checkTest test = .ok () := by
  rw [checkTest, if_neg ht, hs, if_neg Bool.false_ne_true]

theorem checkTests_of_some {test : TestSettings} (h : s.test = some test) :
    s.checkTests = checkTest test := by
  simp only [checkTests, h]

theorem checkTests_withSource {test : TestSettings} (h : s.test = some test) :
    (s.withSource other .tests).checkTests = checkTest (test.withSource other) := by
  exact checkTests_of_some (by rw [withSource, h, Option.map_some])

-- The checks pass as they did if the other source does, or if there is a list of files.
theorem validate_withSource (hspec : s.sourceOf role = some spec) (hne : spec.isEmpty = false)
    (hfiles : s.validate = .ok () → other.isEmpty = true → (s.filesOf role).isSome = true) :
    (s.withSource other role).validate = s.validate := by
  cases role with
  | main => rfl
  | tests =>
    obtain ⟨test, htest, hsource⟩ := Option.bind_eq_some_iff.mp hspec
    rw [validate_eq_checkNames, checkNames_withSource, checkTests_withSource htest]
    rw [validate_eq_checkNames, checkTests_of_some htest] at hfiles ⊢
    cases hnames : s.checkNames with
    | error failure => rfl
    | ok _ =>
      rw [hnames] at hfiles
      change checkTest (test.withSource other) = checkTest test
      by_cases htype : test.type = ""
      · rw [checkTest, checkTest, if_pos htype]
        exact if_pos htype
      · have hok : checkTest test = .ok () := by
          refine checkTest_of_source htype ?_
          rw [hsource]
          exact lacksSource_of_isEmpty hne _
        have hlisted := hfiles hok
        rw [filesOf, htest, Option.bind_some] at hlisted
        rw [hok]
        exact checkTest_of_source htype (lacksSource_of_listed hlisted)

theorem plan_of_lacksSource (hv : s.validate = .ok ())
    (h : lacksSource s.source s.sourceFiles = true) (dir : Path) :
    s.plan dir = .error Role.main.missing := by
  simp only [Settings.plan, hv, h]
  rfl

-- Settings that were valid are refused for the empty source, where there is no list of files: those
-- of tests by the checks, those of main files when a plan is made.
theorem refused_withSource (hspec : s.sourceOf role = some spec) (hempty : other.isEmpty = true)
    (hnone : s.filesOf role = none) (hv : s.validate = .ok ()) (dir : Path) :
    ((s.withSource other role).validate >>= fun _ => (s.withSource other role).plan dir) =
      .error role.missing := by
  have hlacks : ∀ {files : Option (List String)}, files = none →
      lacksSource (some other) files = true := by
    rintro _ rfl
    rw [lacksSource_some, hempty]
    rfl
  cases role with
  | main =>
    have hvalid : (s.withSource other .main).validate = .ok () := hv
    rw [hvalid]
    exact plan_of_lacksSource hvalid (hlacks hnone) dir
  | tests =>
    obtain ⟨test, htest, -⟩ := Option.bind_eq_some_iff.mp hspec
    rw [validate_eq_checkNames, checkTests_of_some htest] at hv
    obtain ⟨_, hnames, hok⟩ := except_bind_eq_ok hv
    have htype : test.type ≠ "" := ((checks_checkTest test).eq_ok_iff.mp hok).1
    rw [filesOf, htest, Option.bind_some] at hnone
    have hrefused : (s.withSource other .tests).validate = .error Role.tests.missing := by
      rw [validate_eq_checkNames, checkNames_withSource, checkTests_withSource htest, hnames]
      change checkTest (test.withSource other) = _
      rw [checkTest]
      exact (if_neg htype).trans (if_pos (hlacks hnone))
    rw [hrefused]
    rfl

end Checks

end Settings

-- The same plan, with a source put in the place of the one that it has.
def Plan.withSource (spec : SourceSpec) (plan : Plan) : Role → Plan
  | .main => { plan with source := some spec }
  | .tests => { plan with test := plan.test.map fun test => { test with source := some spec } }

def Plan.sourceOf (plan : Plan) : Role → Option SourceSpec
  | .main => plan.source
  | .tests => plan.test.bind TestPlan.source

namespace Settings

variable {dir : Path} {role : Role} {spec other : SourceSpec} {s : Settings}

theorem mapM_planTest_withSource (test : Option TestSettings) (spec : SourceSpec) :
    (test.map (TestSettings.withSource spec)).mapM planTest =
      (test.mapM planTest).map (Option.map fun test => { test with source := some spec }) := by
  cases test with
  | none => rfl
  | some test =>
    simp only [Option.map_some, Option.mapM_some, planTest, TestSettings.withSource]
    cases Filter.compile test.includes test.excludes <;> rfl

theorem absoluteFiles_withSource (dir : Path) (test : Option TestSettings) (spec : SourceSpec) :
    ((test.map (TestSettings.withSource spec)).bind fun test =>
      absoluteFiles dir test.sourceFiles) =
        test.bind fun test => absoluteFiles dir test.sourceFiles := by
  cases test <;> rfl

theorem plan_withSource (hspec : s.sourceOf role = some spec) (hne : spec.isEmpty = false)
    (hvalid : (s.withSource other role).validate = s.validate)
    (hfiles : other.isEmpty = true → (s.filesOf role).isSome = true) (dir : Path) :
    (s.withSource other role).plan dir =
      (s.plan dir).map fun result => (result.1.withSource other role, result.2) := by
  have hlacks : lacksSource (s.withSource other role).source (s.withSource other role).sourceFiles =
      lacksSource s.source s.sourceFiles := by
    cases role with
    | main =>
      have hsource : s.source = some spec := hspec
      rw [hsource, lacksSource_of_isEmpty hne]
      exact lacksSource_of_listed hfiles
    | tests => rfl
  cases hv : s.validate with
  | error failure =>
    rw [hv] at hvalid
    simp only [Settings.plan, hvalid, hv]
    rfl
  | ok _ =>
    rw [hv] at hvalid
    cases hl : lacksSource s.source s.sourceFiles with
    | true =>
      rw [plan_of_lacksSource hv hl, plan_of_lacksSource hvalid (hlacks.trans hl)]
      rfl
    | false =>
      simp only [Settings.plan, hvalid, hv, hlacks, hl]
      cases hfilter : Filter.compile s.includes s.excludes with
      | error failure => cases role <;> simp only [withSource, hfilter] <;> rfl
      | ok filter =>
        cases htest : s.test.mapM planTest with
        | error failure =>
          cases role <;> simp only [withSource, hfilter, mapM_planTest_withSource, htest] <;> rfl
        | ok test =>
          cases hruntime : s.runtime <;> cases role <;>
            simp only [withSource, hfilter, mapM_planTest_withSource, htest, hruntime,
              absoluteFiles_withSource] <;> rfl

theorem sourceOf_of_plan {plan : Plan} {state : RunState} (h : s.plan dir = .ok (plan, state))
    (role : Role) : plan.sourceOf role = s.sourceOf role := by
  have hv := validate_of_plan h
  cases hl : lacksSource s.source s.sourceFiles with
  | true =>
    rw [plan_of_lacksSource hv hl] at h
    cases h
  | false =>
    simp only [Settings.plan, hl] at h
    obtain ⟨_, -, h⟩ := except_bind_eq_ok h
    obtain ⟨filter, -, h⟩ := except_bind_eq_ok h
    obtain ⟨test, htest, h⟩ := except_bind_eq_ok h
    have hplan : plan.source = s.source ∧ plan.test = test := by
      cases hruntime : s.runtime <;> rw [hruntime] at h <;> cases h
      exact ⟨rfl, rfl⟩
    cases role with
    | main => exact hplan.1
    | tests =>
      change plan.test.bind _ = s.test.bind _
      rw [hplan.2]
      cases hs : s.test with
      | none =>
        rw [hs] at htest
        cases htest
        rfl
      | some settings =>
        rw [hs, Option.mapM_some, planTest] at htest
        cases hc : Filter.compile settings.includes settings.excludes <;> rw [hc] at htest <;>
          cases htest
        rfl

end Settings

namespace Discovery

variable {ε : Type} {spec other : SourceSpec}

theorem hydrateSource_congr (h : other.patterns = spec.patterns) (hydrator : Hydrator ε)
    (dir : Path) (label : String) :
    hydrateSource hydrator dir (some other) label =
      hydrateSource hydrator dir (some spec) label := by
  simp only [hydrateSource, h]

-- Two sources of the same patterns are one to discovery.
theorem find_withSource {plan : Plan} {role : Role} (hspec : plan.sourceOf role = some spec)
    (h : other.patterns = spec.patterns) (hydrator : Hydrator ε) (state : RunState)
    (wanted : Role) : wanted.find hydrator (plan.withSource other role) state =
      wanted.find hydrator plan state := by
  cases role with
  | main =>
    have hsource : plan.source = some spec := hspec
    cases wanted with
    | main =>
      simp only [Role.find, findMain, fillMain, Plan.withSource, hsource, hydrateSource_congr h]
    | tests => rfl
  | tests =>
    obtain ⟨test, htest, hsource⟩ := Option.bind_eq_some_iff.mp hspec
    cases wanted with
    | main => rfl
    | tests =>
      simp only [Role.find, findTests, fillTests, Plan.withSource, htest, Option.map_some, hsource,
        hydrateSource_congr h]

end Discovery

namespace Settings

variable {tree : Tree} {dir : Path} {role : Role} {location : String}
  {listed lone : List (String × Json)}

-- Two configurations that mean the same, but for how the source of one role is spelled: they load
-- alike, plans are made alike of what they load as, and discovery does the same for these plans.
structure Agree (tree : Tree) (dir : Path) (spec : SourceSpec) (role : Role)
    (entries more : List (String × Json)) : Prop where
  load : ∀ log log', (exec (load tree dir (.object more)) log').1 =
    (exec (load tree dir (.object entries)) log).1.map (·.withSource spec role)
  plan : ∀ log s, (exec (Settings.load tree dir (.object entries)) log).1 = .ok s →
    (s.withSource spec role).plan dir =
      (s.plan dir).map fun result => (result.1.withSource spec role, result.2)
  find : ∀ log s, (exec (Settings.load tree dir (.object entries)) log).1 = .ok s →
    ∀ plan state, s.plan dir = .ok (plan, state) →
    ∀ (ε : Type) (hydrator : Hydrator ε) (wanted : Role) (current : RunState),
      wanted.find hydrator (plan.withSource spec role) current = wanted.find hydrator plan current

theorem sourceOf_of_ofValue {entries more : List (String × Json)} {spec other : SourceSpec}
    {s : Settings} (hd : Json.Differs role.key (role.Forms spec other) entries more)
    (h : ofValue (.object entries) = .ok s) : s.sourceOf role = some spec :=
  (reads_of_ofJson? (ofValue_eq_ok h).1).sourceOf hd

-- A location that is given as a string and one that is given as the only item of a list mean the
-- same, for main files and for tests, in all configurations and whatever these extend; the empty
-- location does where the settings have a list of files for that role. Where they have none, the
-- list of it is a source, and the string is none: if the former loads, the latter is refused.
theorem lone_location_agrees (hc : (Json.object listed).IsCanonical)
    (hm : (Json.object lone).IsCanonical)
    (hd : Json.Differs role.key (role.Forms (.many [location]) (.one location)) listed lone) :
    ((location = "" → ∀ log s, (exec (load tree dir (.object listed)) log).1 = .ok s →
        (s.filesOf role).isSome = true) →
      Agree tree dir (.one location) role listed lone) ∧
    (location = "" → ∀ log log' s, (exec (load tree dir (.object listed)) log).1 = .ok s →
      s.filesOf role = none →
      ((exec (load tree dir (.object lone)) log').1 >>= fun s => s.plan dir) =
        .error role.missing) := by
  have hempty : (SourceSpec.one location).isEmpty = true ↔ location = "" := by
    simp [SourceSpec.isEmpty]
  have hkey : role.key ≠ "extends" := by cases role <;> decide
  obtain ⟨failure, hfailure⟩ | ⟨merged, merged', hmerged, hload⟩ :=
    load_differs tree dir hc hm (role.overlays_forms _ _) hd hkey
  · refine ⟨fun _ => ⟨fun log log' => ?_, fun log s h => ?_, fun log s h => ?_⟩,
      fun _ log log' s h => ?_⟩
    · rw [(hfailure log).1, (hfailure log').2]
      rfl
    all_goals
      rw [(hfailure log).1] at h
      cases h
  · have hshape := checkShape_differs hmerged role.key_mem
    have hread := ofJson?_withSource hmerged
    refine ⟨fun hfiles => ?_, fun heq log log' s h hnone => ?_⟩
    · have hvalid : ∀ s, checkShape (.object merged) = .ok () → ofJson? (.object merged) = some s →
          (s.withSource (.one location) role).validate = s.validate := by
        intro s hcheck hs
        refine validate_withSource ((reads_of_ofJson? hs).sourceOf hmerged) rfl fun hok he => ?_
        refine hfiles (hempty.mp he) default s ((hload default).1.trans ?_)
        rw [ofValue_of_shape hcheck hs, hok]
        rfl
      refine ⟨fun log log' => ?_, fun log s h => ?_, fun log s h plan state hplan => ?_⟩
      · rw [(hload log).1, (hload log').2]
        exact ofValue_map hshape hread hvalid
      · have hs := (hload log).1.symm.trans h
        exact plan_withSource (sourceOf_of_ofValue hmerged hs) rfl
          (hvalid s (checkShape_of_ofValue hs) (ofValue_eq_ok hs).1)
          (fun he => hfiles (hempty.mp he) log s h) dir
      · have hs := (hload log).1.symm.trans h
        intro ε hydrator wanted current
        have hspec := (sourceOf_of_plan hplan role).trans (sourceOf_of_ofValue hmerged hs)
        have hpatterns : (SourceSpec.one location).patterns =
            (SourceSpec.many [location]).patterns := rfl
        exact Discovery.find_withSource hspec hpatterns hydrator current wanted
    · have hs := (hload log).1.symm.trans h
      obtain ⟨hfound, hok⟩ := ofValue_eq_ok hs
      have hrefused :=
        refused_withSource (sourceOf_of_ofValue hmerged hs) (hempty.mpr heq) hnone hok dir
      rw [hfound] at hread
      rw [(hload log').2, ofValue_of_shape (hshape.trans (checkShape_of_ofValue hs)) hread]
      refine Eq.trans ?_ hrefused
      cases (s.withSource (.one location) role).validate <;> rfl

-- A configuration with a source for main files, and a source and a list of files for tests.
def pointed (main tests : Json) : List (String × Json) :=
  [("runtime", .string "r"), ("source", main),
    ("test", .object [("source", tests), ("sourceFiles", .strings ["t.js"]),
      ("type", .string "m")])]

def extended (main : Json) : List (String × Json) :=
  ("extends", .strings ["a.json", "b.json"]) :: pointed main (.string "test")

theorem isCanonical_extended (location : String) :
    (Json.object (extended (.string location))).IsCanonical ∧
      (Json.object (extended (.strings [location]))).IsCanonical :=
  ⟨Json.isCanonical_iff.mpr rfl, Json.isCanonical_iff.mpr rfl⟩

theorem differs_extended (location : String) : Json.Differs Role.main.key
    (Role.main.Forms (.many [location]) (.one location)) (extended (.strings [location]))
    (extended (.string location)) where
  held := ⟨_, _, rfl, rfl, rfl, rfl⟩
  same := by
    intro k hk
    have hne : "source" ≠ k := Ne.symm hk
    simp only [extended, pointed, Json.lookup, if_neg hne]
  left := (isCanonical_extended location).2.increasing
  right := (isCanonical_extended location).1.increasing

theorem isCanonical_pointed (location : String) :
    (Json.object (pointed (.string "src") (.string location))).IsCanonical ∧
      (Json.object (pointed (.string "src") (.strings [location]))).IsCanonical :=
  ⟨Json.isCanonical_iff.mpr rfl, Json.isCanonical_iff.mpr rfl⟩

theorem differs_pointed (location : String) : Json.Differs Role.tests.key
    (Role.tests.Forms (.many [location]) (.one location))
    (pointed (.string "src") (.strings [location]))
    (pointed (.string "src") (.string location)) where
  held := by
    refine ⟨_, _, rfl, rfl, .object ⟨⟨⟨_, _, rfl, rfl, rfl, rfl⟩, fun k hk => ?_⟩, ?_, ?_⟩⟩
    · have hne : "source" ≠ k := Ne.symm hk
      simp only [Json.lookup, if_neg hne]
    · have htest : (Json.object (pointed (.string "src") (.strings [location]))).get? "test" =
          some _ := rfl
      exact ((isCanonical_pointed location).2.of_get? htest).increasing
    · have htest : (Json.object (pointed (.string "src") (.string location))).get? "test" =
          some _ := rfl
      exact ((isCanonical_pointed location).1.of_get? htest).increasing
  same := by
    intro k hk
    have hne : "test" ≠ k := Ne.symm hk
    simp only [pointed, Json.lookup, if_neg hne]
  left := (isCanonical_pointed location).2.increasing
  right := (isCanonical_pointed location).1.increasing

theorem load_pointed (tree : Tree) (dir : Path) (main tests : Json) (log : Log) :
    (exec (load tree dir (.object (pointed main tests))) log).1 =
      ofValue (.object (pointed main tests)) := by
  rw [load_object, Config.exec_expand_alone rfl]
  rfl

-- What is loaded has a list of files for its tests, and none for main files.
theorem filesOf_pointed (log : Log) {s : Settings}
    (h : (exec (load .empty ⟨"/p"⟩ (.object (pointed (.string "src") (.strings [""])))) log).1 =
      .ok s) : s.filesOf .tests = some ["t.js"] := by
  have hfiles : (ofValue (.object (pointed (.string "src") (.strings [""])))).toOption.map
      (filesOf · .tests) = some (some ["t.js"]) := rfl
  rw [load_pointed] at h
  rw [h] at hfiles
  exact Option.some.inj hfiles

theorem pointed_agree :
    Agree Config.diamond ⟨"/p"⟩ (.one "src") .main (extended (.strings ["src"]))
      (extended (.string "src")) ∧
    Agree .empty ⟨"/p"⟩ (.one "") .tests (pointed (.string "src") (.strings [""]))
      (pointed (.string "src") (.string "")) ∧
    ∃ s, (exec (load Config.diamond ⟨"/p"⟩ (.object (extended (.strings [""])))) ⟨none, []⟩).1 =
        .ok s ∧ s.title = some "c" ∧ s.sourceFiles = none ∧
      ∀ log, ((exec (load Config.diamond ⟨"/p"⟩ (.object (extended (.string "")))) log).1 >>=
        fun s => s.plan ⟨"/p"⟩) = .error Role.main.missing := by
  refine ⟨?_, ?_, ?_⟩
  · have hcanonical := isCanonical_extended "src"
    refine (lone_location_agrees hcanonical.2 hcanonical.1 (differs_extended "src")).1 ?_
    intro hempty
    exact absurd hempty (by decide)
  · have hcanonical := isCanonical_pointed ""
    refine (lone_location_agrees hcanonical.2 hcanonical.1 (differs_pointed "")).1 ?_
    intro _ log s hload
    rw [filesOf_pointed log hload]
    rfl
  · have hcanonical := isCanonical_extended ""
    have hread : (exec (load Config.diamond ⟨"/p"⟩ (.object (extended (.strings [""]))))
        ⟨none, []⟩).1.toOption.map (fun s => (s.title, s.sourceFiles)) = some (some "c", none) := by
      decide +kernel
    cases hload : (exec (load Config.diamond ⟨"/p"⟩ (.object (extended (.strings [""]))))
        ⟨none, []⟩).1 with
    | error failure =>
      rw [hload] at hread
      cases hread
    | ok s =>
      rw [hload] at hread
      obtain ⟨htitle, hnone⟩ := Prod.mk.inj (Option.some.inj hread)
      exact ⟨s, rfl, htitle, hnone, fun log =>
        (lone_location_agrees hcanonical.2 hcanonical.1 (differs_extended "")).2 rfl _ log s hload
          hnone⟩

-- The empty location as the only item of a list is taken for a source, and as a string for none.
theorem empty_location_told_apart :
    ((exec (load .empty ⟨"/p"⟩ (.object (pointed (.strings [""]) (.string "test"))))
      ⟨none, []⟩).1 >>= fun s => s.plan ⟨"/p"⟩).isOk = true ∧
    ((exec (load .empty ⟨"/p"⟩ (.object (pointed (.string "") (.string "test"))))
      ⟨none, []⟩).1 >>= fun s => s.plan ⟨"/p"⟩) =
        .error (.invalidConfig "'source' or 'sourceFiles' is not defined") := by
  rw [load_pointed, load_pointed]
  exact ⟨by decide +kernel, rfl⟩

end Settings

end DocPipeline
