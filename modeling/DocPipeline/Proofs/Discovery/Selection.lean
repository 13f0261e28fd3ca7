import DocPipeline.Proofs.Conduct
import DocPipeline.Proofs.Discovery.Find
import DocPipeline.Proofs.Discovery.Matching

namespace DocPipeline

-- Work on a run state that is changed in place.
abbrev Search (ε : Type) := ExceptT Failure (StateM (RunState × World ε))

namespace Search

variable {ε α : Type}

def ofWork (work : Work ε α) : Search ε α := ExceptT.mk fun run =>
  let (result, world) := exec work run.2
  (result, (run.1, world))

def change (f : RunState → RunState) : Search ε Unit := modify fun run => (f run.1, run.2)

end Search

namespace Discovery

-- The two lists of files of a run.
inductive Role where
  | main
  | tests
deriving DecidableEq

namespace Role

variable {ε : Type}

def label : Role → String
  | main => "source"
  | tests => "test.source"

def files (state : RunState) : Role → Option (List Path)
  | main => state.sourceFiles
  | tests => state.testFiles

def setFiles (files : List Path) (state : RunState) : Role → RunState
  | main => { state with sourceFiles := some files }
  | tests => { state with testFiles := some files }

def setGlobs (globs : List String) (state : RunState) : Role → RunState
  | main => { state with sourceGlobs := some globs }
  | tests => { state with testGlobs := some globs }

-- Where the files come from and the filter for them. Without tests in the configuration no test files
-- are wanted.
def wanted? (plan : Plan) : Role → Option (Option SourceSpec × Filter)
  | main => some (plan.source, plan.filter)
  | tests => plan.test.map fun test => (test.source, test.filter)

-- The search that gives a new run state.
def find (hydrator : Hydrator ε) (plan : Plan) (state : RunState) :
    Role → Work ε (RunState × List Candidate)
  | main => findMain hydrator plan state
  | tests => findTests hydrator plan state

def keep (hydrated : Hydrated) (state : RunState) (role : Role) : RunState :=
  role.setFiles hydrated.files (role.setGlobs hydrated.globs state)

@[simp] theorem files_keep (hydrated : Hydrated) (state : RunState) (role : Role) :
    role.files (role.keep hydrated state) = some hydrated.files := by
  cases role <;> rfl

end Role

variable {ε : Type} {finds : Matcher} {hydrator : Hydrator ε} {plan : Plan} {role : Role}
  {source : Option SourceSpec} {filter : Filter} {files : List Path} {state : RunState}
  {world : World ε}

def chooseWith (finds : Matcher) (dir : Path) (filter : Filter) (files : List Path) :
    Work ε (List Candidate) := do
  let accepted := Candidate.selectWith finds dir files filter
  Work.noteAll (Candidate.skipEventsWith finds dir files filter)
  Work.count (·.addFiltered (files.length - accepted.length))
  return accepted

def fill (hydrator : Hydrator ε) (dir : Path) (source : Option SourceSpec) (role : Role) :
    Search ε Unit := do
  match role.files (← get).1 with
  | some _ => return
  | none =>
    let hydrated ← Search.ofWork (hydrateSource hydrator dir source role.label)
    Search.change fun state => role.setGlobs hydrated.globs state
    Search.change fun state => role.setFiles hydrated.files state

def discover (finds : Matcher) (hydrator : Hydrator ε) (plan : Plan) (role : Role) :
    Search ε (List Candidate) := do
  match role.wanted? plan with
  | none => return []
  | some (source, filter) =>
    fill hydrator plan.dir source role
    let files := (role.files (← get).1).getD []
    Search.ofWork (chooseWith finds plan.dir filter files)

-- The world after a choice among files: it is counted and logged which ones were passed over.
def counted (finds : Matcher) (dir : Path) (filter : Filter) (files : List Path)
    (world : World ε) : World ε :=
  { world with
    metrics := world.metrics.addFiltered
      (files.length - (Candidate.selectWith finds dir files filter).length)
    log := world.log.addAll (Candidate.skipEventsWith finds dir files filter) }

-- Every file of the list is selected or counted.
theorem filesFiltered_counted (finds : Matcher) (dir : Path) (filter : Filter) (files : List Path)
    (world : World ε) :
    (counted finds dir filter files world).metrics.filesFiltered +
        (Candidate.selectWith finds dir files filter).length =
      world.metrics.filesFiltered + files.length := by
  have hle := Candidate.length_selectWith_le finds dir files filter
  simp only [counted, Metrics.addFiltered]
  omega

theorem exec_fill_of_some {dir : Path} (hf : role.files state = some files) :
    exec (fill hydrator dir source role) (state, world) = (.ok (), (state, world)) := by
  rw [fill, exec_bind_of_ok (exec_get _)]
  simp only [hf]
  rfl

theorem exec_fill_of_none (hydrator : Hydrator ε) (dir : Path) (source : Option SourceSpec)
    (world : World ε) (hf : role.files state = none) :
    exec (fill hydrator dir source role) (state, world) =
      match exec (hydrateSource hydrator dir source role.label) world with
      | (.ok hydrated, world) => (.ok (), (role.keep hydrated state, world))
      | (.error failure, world) => (.error failure, (state, world)) := by
  rw [fill, exec_bind_of_ok (exec_get _)]
  simp only [hf]
  rw [exec_bind]
  simp only [Search.ofWork, exec_mk]
  rcases exec (hydrateSource hydrator dir source role.label) world with ⟨_ | _, _⟩ <;> rfl

theorem exec_discover_of_unwanted (hw : role.wanted? plan = none) :
    exec (discover finds hydrator plan role) (state, world) = (.ok [], (state, world)) := by
  simp only [discover, hw]
  rfl

theorem exec_discover_of_filled {filled : RunState} {world' : World ε}
    (hw : role.wanted? plan = some (source, filter))
    (he : exec (fill hydrator plan.dir source role) (state, world) = (.ok (), (filled, world')))
    (hf : role.files filled = some files) :
    exec (discover finds hydrator plan role) (state, world) =
      (.ok (Candidate.selectWith finds plan.dir files filter),
        (filled, counted finds plan.dir filter files world')) := by
  simp only [discover, hw]
  rw [exec_bind_of_ok he, exec_bind_of_ok (exec_get _), hf]
  rfl

theorem exec_discover_of_unfilled {failure : Failure} {run : RunState × World ε}
    (hw : role.wanted? plan = some (source, filter))
    (he : exec (fill hydrator plan.dir source role) (state, world) = (.error failure, run)) :
    exec (discover finds hydrator plan role) (state, world) = (.error failure, run) := by
  simp only [discover, hw]
  exact exec_bind_of_error he _

-- A list that is there is taken as it is, whatever the hydrator would do.
theorem exec_discover_of_listed (hw : role.wanted? plan = some (source, filter))
    (hf : role.files state = some files) :
    exec (discover finds hydrator plan role) (state, world) =
      (.ok (Candidate.selectWith finds plan.dir files filter),
        (state, counted finds plan.dir filter files world)) :=
  exec_discover_of_filled hw (exec_fill_of_some hf) hf

-- The filling that gives a new run state.
def filled (hydrator : Hydrator ε) (dir : Path) (source : Option SourceSpec) (state : RunState)
    (role : Role) : Work ε RunState :=
  match role.files state with
  | some _ => return state
  | none => do
    let hydrated ← hydrateSource hydrator dir source role.label
    return role.keep hydrated state

-- Both searches that give a new run state take the same steps.
theorem find_eq (hw : role.wanted? plan = some (source, filter)) :
    role.find hydrator plan state = (do
      let state ← filled hydrator plan.dir source state role
      return (state, ← choose plan.dir filter ((role.files state).getD []))) := by
  cases role with
  | main =>
    cases hw
    rfl
  | tests =>
    obtain ⟨test, ht, hpair⟩ := Option.map_eq_some_iff.mp hw
    cases hpair
    simp only [Role.find, findTests, ht]
    rfl

theorem find_of_unwanted (hw : role.wanted? plan = none) :
    role.find hydrator plan state = return (state, []) := by
  cases role with
  | main => cases hw
  | tests => simp only [Role.find, findTests, Option.map_eq_none_iff.mp hw]

-- Taking the run state from a search that gives a new one, and keeping the old one when it fails, is
-- the search in place.
theorem exec_discover_isIn (hydrator : Hydrator ε) (plan : Plan) (role : Role) (state : RunState)
    (world : World ε) :
    exec (discover Pattern.isIn hydrator plan role) (state, world) =
      match exec (role.find hydrator plan state) world with
      | (.ok (state, chosen), world) => (.ok chosen, (state, world))
      | (.error failure, world) => (.error failure, (state, world)) := by
  cases hw : role.wanted? plan with
  | none =>
    rw [exec_discover_of_unwanted hw, find_of_unwanted hw]
    rfl
  | some wanted =>
    obtain ⟨source, filter⟩ := wanted
    rw [find_eq hw]
    cases hf : role.files state with
    | some files =>
      simp only [filled, hf]
      rw [exec_discover_of_listed hw hf, exec_bind_of_ok (exec_pure _ _), hf]
      rfl
    | none =>
      simp only [filled, hf]
      have hfill := exec_fill_of_none hydrator plan.dir source world hf
      rw [exec_bind, exec_bind]
      rcases he : exec (hydrateSource hydrator plan.dir source role.label) world with
        ⟨failure | hydrated, world'⟩ <;> rw [he] at hfill
      · rw [exec_discover_of_unfilled hw hfill]
      · rw [exec_discover_of_filled hw hfill (role.files_keep hydrated state)]
        simp only [exec_pure, Role.files_keep]
        rfl

-- What expanding the source gives: nothing can be expanded without one, and a failure of the
-- hydrator is noted.
def expansion (hydrator : Hydrator ε) (dir : Path) (label : String) (world : World ε) :
    Option SourceSpec → Except Failure Hydrated
  | none => .error (missingSource label)
  | some spec => ((hydrator dir spec.patterns).run () world).result.mapError fun failure =>
      failure.note ("Failed to expand '" ++ label ++ "' patterns")

theorem exec_hydrateSource_fst (hydrator : Hydrator ε) (dir : Path) (source : Option SourceSpec)
    (label : String) (world : World ε) :
    (exec (hydrateSource hydrator dir source label) world).1 =
      expansion hydrator dir label world source := by
  cases source with
  | none => rfl
  | some spec =>
    rw [hydrateSource, exec_bind_fst, exec_tryCatch]
    simp only [Conduct.perform, exec_mk, expansion]
    cases ((hydrator dir spec.patterns).run () world).result <;> rfl

theorem hydrateSource_filesFiltered (hydrator : Hydrator ε) (dir : Path)
    (source : Option SourceSpec) (label : String) (world : World ε) :
    (exec (hydrateSource hydrator dir source label) world).2.metrics.filesFiltered =
      world.metrics.filesFiltered := by
  cases source with
  | none => rfl
  | some spec =>
    have hview : ∀ m : Metrics, m.addFailure.filesFiltered = m.filesFiltered := fun _ => rfl
    have hrun := (hydrator dir spec.patterns).run_view hview () world
    rw [hydrateSource, exec_bind, exec_tryCatch]
    simp only [Conduct.perform, exec_mk]
    generalize (hydrator dir spec.patterns).run () world = outcome at hrun ⊢
    rcases outcome with ⟨failure | hydrated, _, world'⟩ <;> exact hrun

-- A list that is not there is filled by the hydrator, which leaves the count of files alone.
theorem exists_exec_fill (hydrator : Hydrator ε) (dir : Path) (source : Option SourceSpec)
    (world : World ε) (hf : role.files state = none) :
    ∃ world', world'.metrics.filesFiltered = world.metrics.filesFiltered ∧
      exec (fill hydrator dir source role) (state, world) =
        match expansion hydrator dir role.label world source with
        | .ok hydrated => (.ok (), (role.keep hydrated state, world'))
        | .error failure => (.error failure, (state, world')) := by
  refine ⟨_, hydrateSource_filesFiltered hydrator dir source role.label world, ?_⟩
  rw [exec_fill_of_none hydrator dir source world hf, ← exec_hydrateSource_fst]
  rcases exec (hydrateSource hydrator dir source role.label) world with ⟨_ | _, _⟩ <;> rfl

theorem exec_discover_of_error {failure : Failure}
    (hw : role.wanted? plan = some (source, filter)) (hf : role.files state = none)
    (he : expansion hydrator plan.dir role.label world source = .error failure) :
    ∃ world', world'.metrics.filesFiltered = world.metrics.filesFiltered ∧
      exec (discover finds hydrator plan role) (state, world) =
        (.error failure, (state, world')) := by
  obtain ⟨world', hcount, hfill⟩ := exists_exec_fill hydrator plan.dir source world hf
  rw [he] at hfill
  exact ⟨world', hcount, exec_discover_of_unfilled hw hfill⟩

theorem exec_discover_of_hydrated {hydrated : Hydrated}
    (hw : role.wanted? plan = some (source, filter)) (hf : role.files state = none)
    (he : expansion hydrator plan.dir role.label world source = .ok hydrated) :
    ∃ world', world'.metrics.filesFiltered = world.metrics.filesFiltered ∧
      exec (discover finds hydrator plan role) (state, world) =
        (.ok (Candidate.selectWith finds plan.dir hydrated.files filter),
          (role.keep hydrated state, counted finds plan.dir filter hydrated.files world')) := by
  obtain ⟨world', hcount, hfill⟩ := exists_exec_fill hydrator plan.dir source world hf
  rw [he] at hfill
  exact ⟨world', hcount, exec_discover_of_filled hw hfill (role.files_keep hydrated state)⟩

-- A search selects the accepted files of a list, in its order: of the one that is there, which it
-- leaves as it is and hydrates nothing for, else of the one that the hydrator makes, which is there
-- for every later search. Where the hydrator fails the run state stays as it was. The files that are
-- not selected are counted. More includes select more, more excludes less, and neither their order nor
-- repeated ones make a difference.
theorem discover_selects (finds : Matcher) (hydrator : Hydrator ε) (plan : Plan) (role : Role)
    (state : RunState) (world : World ε) :
    (match role.wanted? plan with
      | none => exec (discover finds hydrator plan role) (state, world) = (.ok [], (state, world))
      | some (source, filter) =>
        match role.files state with
        | some files => exec (discover finds hydrator plan role) (state, world) =
            (.ok (Candidate.selectWith finds plan.dir files filter),
              (state, counted finds plan.dir filter files world))
        | none =>
          ∃ world', world'.metrics.filesFiltered = world.metrics.filesFiltered ∧
            match expansion hydrator plan.dir role.label world source with
            | .error failure => exec (discover finds hydrator plan role) (state, world) =
                (.error failure, (state, world'))
            | .ok hydrated =>
              exec (discover finds hydrator plan role) (state, world) =
                (.ok (Candidate.selectWith finds plan.dir hydrated.files filter),
                  (role.keep hydrated state,
                    counted finds plan.dir filter hydrated.files world')) ∧
              ∀ (again : Hydrator ε) (later : World ε),
                exec (discover finds again plan role) (role.keep hydrated state, later) =
                  (.ok (Candidate.selectWith finds plan.dir hydrated.files filter),
                    (role.keep hydrated state,
                      counted finds plan.dir filter hydrated.files later))) ∧
      (exec (discover Pattern.isIn hydrator plan role) (state, world) =
        match exec (role.find hydrator plan state) world with
        | (.ok (state, chosen), world) => (.ok chosen, (state, world))
        | (.error failure, world) => (.error failure, (state, world))) ∧
      (∀ dir files filter (before : World ε),
        (Candidate.selectWith finds dir files filter).Sublist (files.map (Candidate.ofFile dir)) ∧
          (counted finds dir filter files before).metrics.filesFiltered +
              (Candidate.selectWith finds dir files filter).length =
            before.metrics.filesFiltered + files.length) ∧
      (∀ filter text,
        (Filter.acceptsWith finds filter text = true ↔
          Filter.Found finds filter.includes text ∧ ¬ Filter.Found finds filter.excludes text) ∧
        ∀ decision, Filter.decideWith finds filter text = decision ↔
          decision.Holds finds filter text) ∧
      (∀ filter filter' : Filter,
        (∀ pattern, pattern ∈ filter.includes ↔ pattern ∈ filter'.includes) →
        (∀ pattern, pattern ∈ filter.excludes ↔ pattern ∈ filter'.excludes) →
        ∀ text, filter.acceptsWith finds text = filter'.acceptsWith finds text) ∧
      ∀ filter filter' : Filter, filter.includes ⊆ filter'.includes →
        filter'.excludes ⊆ filter.excludes → ∀ dir files,
          (Candidate.selectWith finds dir files filter).Sublist
            (Candidate.selectWith finds dir files filter') := by
  refine ⟨?_, exec_discover_isIn hydrator plan role state world,
    fun dir files filter before =>
      ⟨List.filter_sublist, filesFiltered_counted finds dir filter files before⟩,
    fun filter text => ⟨Filter.acceptsWith_iff, fun decision => Filter.decideWith_eq_iff⟩,
    fun filter filter' hi he text => Filter.acceptsWith_congr hi he,
    fun filter filter' hi he dir files => Candidate.selectWith_sublist dir files hi he⟩
  cases hw : role.wanted? plan with
  | none => exact exec_discover_of_unwanted hw
  | some wanted =>
    cases hf : role.files state with
    | some files => exact exec_discover_of_listed hw hf
    | none =>
      cases he : expansion hydrator plan.dir role.label world wanted.1 with
      | error failure =>
        obtain ⟨world', hcount, hexec⟩ := exec_discover_of_error hw hf he
        exact ⟨world', hcount, by simpa only [he] using hexec⟩
      | ok hydrated =>
        obtain ⟨world', hcount, hexec⟩ := exec_discover_of_hydrated hw hf he
        refine ⟨world', hcount, ?_⟩
        simp only [he]
        exact ⟨hexec, fun again later =>
          exec_discover_of_listed hw (role.files_keep hydrated state)⟩

theorem hydrated_files_selected :
    let finds : Matcher := fun pattern text => pattern.source.toList.isSuffixOf text.toList
    let filter : Filter := ⟨[⟨".js", .empty⟩], [⟨".min.js", .empty⟩]⟩
    let files : List Path := [⟨"src/a.js"⟩, ⟨"./b.min.js"⟩, ⟨"/w/c.txt"⟩, ⟨"../x/d.js"⟩]
    let hydrator : Hydrator Unit := fun _ _ => .done ⟨files, ["/w/**"]⟩
    let plan : Plan := { (default : Plan) with dir := ⟨"/w"⟩, source := some (.one "."), filter }
    ∃ state world, exec (discover finds hydrator plan .main) ({}, default) =
        (.ok [⟨⟨"/w/src/a.js"⟩, "src/a.js"⟩, ⟨⟨"/x/d.js"⟩, "../x/d.js"⟩], (state, world)) ∧
      state.sourceFiles = some files ∧ state.sourceGlobs = some ["/w/**"] ∧
      world.metrics.filesFiltered = 2 := by
  intro finds filter files hydrator plan
  have h := discover_selects finds hydrator plan .main {} default
  obtain ⟨⟨world, hcount, hexec, -⟩, -, hcounted, -⟩ := h
  have hselect : Candidate.selectWith finds ⟨"/w"⟩ files filter =
      [⟨⟨"/w/src/a.js"⟩, "src/a.js"⟩, ⟨⟨"/x/d.js"⟩, "../x/d.js"⟩] := by decide
  have hfiltered := (hcounted ⟨"/w"⟩ files filter world).2
  rw [hselect] at hexec
  rw [hselect, hcount] at hfiltered
  exact ⟨_, _, hexec, rfl, rfl, Nat.add_right_cancel hfiltered⟩

end Discovery

end DocPipeline
