import DocPipeline.Proofs.Coordinator.Files
import DocPipeline.Proofs.Discovery.Selection
import DocPipeline.Proofs.Path.Distinct

namespace DocPipeline

open DocPipeline.Discovery (Role)

variable {ε : Type}

namespace Candidate

-- A file by its own relative path, from wherever it was listed.
def InDir (dir : Path) (file : Candidate) : Prop := ∃ path, file = ofFile dir path

theorem inDir_of_mem_select {dir : Path} {files : List Path} {filter : Filter} {file : Candidate}
    (h : file ∈ select dir files filter) : file.InDir dir := by
  obtain ⟨path, -, hpath⟩ := List.mem_map.mp (List.mem_filter.mp h).1
  exact ⟨path, hpath.symm⟩

theorem InDir.relative_eq_iff {dir : Path} {file other : Candidate} (h : file.InDir dir)
    (ho : other.InDir dir) : file.relative = other.relative ↔ file.absolute = other.absolute := by
  obtain ⟨path, rfl⟩ := h
  obtain ⟨otherPath, rfl⟩ := ho
  exact ⟨Path.relativeTo_absolutize_injective, congrArg (Path.relativeTo dir)⟩

end Candidate

def Candidates.InDir (dir : Path) (candidates : Candidates) : Prop :=
  (∀ file ∈ candidates.main, file.InDir dir) ∧ ∀ file ∈ candidates.tests, file.InDir dir

-- The candidates of a pass are named as the plan's directory sees them.
def Moment.Named : Moment ε → Prop
  | parse session candidates => candidates.InDir session.plan.dir
  | _ => True

namespace Flow

theorem inDir_of_discover {session : Session ε} {found : Session ε × Candidates}
    {c c' : Coordinator ε} (h : exec (discover session) c = (.ok found, c')) :
    found.2.InDir found.1.plan.dir := by
  obtain ⟨main, world, hmain, tests, world', htests, rfl⟩ := discover_eq_ok h
  obtain ⟨⟨files, -, -, hselect⟩, -⟩ := Discovery.findMain_eq_ok hmain
  obtain ⟨hchosen, -⟩ := Discovery.findTests_eq_ok htests
  refine ⟨fun file hfile => Candidate.inDir_of_mem_select (hselect ▸ hfile), fun file hfile => ?_⟩
  cases htest : session.plan.test with
  | none =>
    simp only [htest] at hchosen
    exact absurd hfile (hchosen ▸ List.not_mem_nil)
  | some test =>
    simp only [htest] at hchosen
    obtain ⟨files, -, -, hselect⟩ := hchosen
    exact Candidate.inDir_of_mem_select (hselect ▸ hfile)

theorem inDir_of_beginPass {session : Session ε} (hk : session.Keeps)
    {begun : Session ε × Candidates} {c c' : Coordinator ε}
    (h : exec (beginPass session) c = (.ok begun, c')) : begun.2.InDir begun.1.plan.dir := by
  obtain ⟨state, c₁, -, hpass⟩ := exec_bind_eq_ok h
  have hfound := exec_passCandidates hk state c₁
  rw [hpass] at hfound
  rcases hd : exec (discover { session with state, found := none }) c₁ with ⟨result, c₂⟩
  rw [hd] at hfound
  subst hfound
  exact inDir_of_discover hd

theorem named_of_advance {moment next : Moment ε} (hcurrent : moment.Current)
    (hm : moment.isReturned = false) {c c' : Coordinator ε}
    (h : exec (advance moment) c = (.ok next, c')) : next.Named := by
  obtain ⟨machine, log, hproceed⟩ := advance_ok h
  have hleads : moment.Leads next := ((leads_of_proceed hm).of_ok trivial hproceed).2
  cases hleads with
  | start =>
    obtain ⟨begun, c₁, hbegin, hpure⟩ := exec_bind_eq_ok hproceed
    cases hpure
    exact inDir_of_beginPass hcurrent hbegin
  | _ => trivial

end Flow

theorem Course.named {raw : Json} {c₀ c : Coordinator ε} {trail : List (Situation ε)}
    {moment : Moment ε} (h : Course raw c₀ trail moment c) : moment.Named := by
  induction h with
  | begin => trivial
  | @step trail moment c hcourse hm _ =>
    rcases he : exec (Flow.advance moment) c with ⟨failure | next, c'⟩
    · rw [Coordinator.step_of_error he]
      trivial
    · rw [Coordinator.step_of_ok he]
      exact Flow.named_of_advance hcourse.current hm he
  | meddle _ _ ih => exact ih

-- A syntax tree with the file that it was made of, and what the file was parsed as.
structure Origin where
  role : Role
  file : Candidate
  ast : Ast

namespace Origin

def key : Role → Candidate → String
  | .main, file => file.relative
  | .tests, file => Assembly.testKey file

def ofFile (role : Role) (file : Candidate) (result : ParseResult) : List Origin :=
  (result.asts (key role file)).map fun ast => ⟨role, file, ast⟩

-- A main file below `test` clashes with the test file that has the rest of its relative path.
def Clashes (one other : Origin) : Prop :=
  one.role = .main ∧ other.role = .tests ∧ one.file.relative = "test/" ++ other.file.relative

theorem map_ast_ofFile (role : Role) (file : Candidate) (result : ParseResult) :
    (ofFile role file result).map Origin.ast = result.asts (key role file) := by
  rw [ofFile, List.map_map]
  exact List.map_id _

theorem of_mem_ofFile {role : Role} {file : Candidate} {result : ParseResult} {origin : Origin}
    (h : origin ∈ ofFile role file result) :
    origin.role = role ∧ origin.file = file ∧ origin.ast.filePath = key role file := by
  obtain ⟨ast, hast, rfl⟩ := List.mem_map.mp h
  refine ⟨rfl, rfl, ?_⟩
  rcases result with failure | _ | parsed
  · cases hast
  · cases hast
  · obtain ⟨tree, -, rfl⟩ := Option.map_eq_some_iff.mp (Option.mem_toList.mp hast)
    rfl

end Origin

namespace Session

-- The syntax trees that the files of a pass give, in their order.
def origins (session : Session ε) (tree : Tree) (candidates : Candidates) : List Origin :=
  candidates.main.flatMap (fun file =>
    Origin.ofFile .main file ((session.sources tree).fileResult file)) ++
  match session.plan.test with
  | none => []
  | some test => candidates.tests.flatMap fun file =>
      Origin.ofFile .tests file ((session.sources tree).testResult test.type file)

theorem map_ast_origins (session : Session ε) (tree : Tree) (candidates : Candidates) :
    (session.origins tree candidates).map Origin.ast =
      (session.fileYield tree candidates).asts := by
  rw [origins, List.map_append, List.map_flatMap]
  simp only [Origin.map_ast_ofFile, fileYield, Yield.append]
  cases session.plan.test with
  | none => rfl
  | some test =>
    simp only [List.map_flatMap, Origin.map_ast_ofFile]
    rfl

theorem of_mem_origins {session : Session ε} {tree : Tree} {candidates : Candidates}
    (hc : candidates.InDir session.plan.dir) {origin : Origin}
    (h : origin ∈ session.origins tree candidates) :
    origin.file.InDir session.plan.dir ∧
      origin.ast.filePath = Origin.key origin.role origin.file := by
  rcases List.mem_append.mp h with h | h
  · obtain ⟨file, hfile, hmem⟩ := List.mem_flatMap.mp h
    obtain ⟨hrole, rfl, hkey⟩ := Origin.of_mem_ofFile hmem
    exact ⟨hc.1 _ hfile, hrole ▸ hkey⟩
  · cases htest : session.plan.test with
    | none =>
      simp only [htest] at h
      cases h
    | some test =>
      simp only [htest] at h
      obtain ⟨file, hfile, hmem⟩ := List.mem_flatMap.mp h
      obtain ⟨hrole, rfl, hkey⟩ := Origin.of_mem_ofFile hmem
      exact ⟨hc.2 _ hfile, hrole ▸ hkey⟩

end Session

namespace Origin

-- Keys are shared by the trees of one file in one role, and by a file and what it clashes with.
theorem key_eq_iff {dir : Path} {one other : Origin} (h : one.file.InDir dir)
    (ho : other.file.InDir dir) :
    key one.role one.file = key other.role other.file ↔
      (one.role = other.role ∧ one.file.absolute = other.file.absolute) ∨
        Clashes one other ∨ Clashes other one := by
  have hfile := h.relative_eq_iff ho
  obtain ⟨role, file, ast⟩ := one
  obtain ⟨role', file', ast'⟩ := other
  unfold Clashes
  cases role <;> cases role' <;> simp only [key, Assembly.testKey]
  case main.main => simpa using hfile
  case main.tests => simp
  case tests.main => simpa using eq_comm
  case tests.tests => simpa using hfile

end Origin

namespace Coordinator

-- In every pass of every run, whatever its working directory and its lists of files are: parsing
-- adds one tree for each file that gives one, in their order, and fragments add none. Two trees
-- that come from different files, or from one file as a main file and as a test file, have
-- different keys, unless one is of a main file whose relative path is that of the other, a test
-- file, behind `test/`.
theorem pass_keys_distinct {raw : Json} {c₀ c : Coordinator ε} {trail : List (Situation ε)}
    {session : Session ε} {candidates : Candidates}
    (h : Course raw c₀ trail (.parse session candidates) c) :
    let origins := session.origins c.world.tree candidates
    (∃ skipped c', exec (Flow.parseFiles session candidates) c = (.ok skipped, c') ∧
      c'.world.store.db.asts = c.world.store.db.asts ++ origins.map Origin.ast) ∧
    (∀ fragments c', (exec (Flow.parseFragments session fragments) c').2.world.store.db.asts =
      c'.world.store.db.asts) ∧
    ∀ one ∈ origins, ∀ other ∈ origins,
      (one.role, one.file.absolute) ≠ (other.role, other.file.absolute) →
      (one.ast.filePath = other.ast.filePath ↔ one.Clashes other ∨ other.Clashes one) := by
  intro origins
  have hnamed : candidates.InDir session.plan.dir := h.named
  refine ⟨?_, fun fragments c' => ?_, fun one hone other hother hne => ?_⟩
  · obtain ⟨store, metrics, log, hparse, hdb, -⟩ := Flow.exec_parseFiles session candidates c
    refine ⟨_, _, hparse, ?_⟩
    rw [session.map_ast_origins]
    exact congrArg Database.asts hdb
  · obtain ⟨store, metrics, log, hparse, hdb, -⟩ := Flow.exec_parseFragments session fragments c'
    have hasts : store.db.asts = c'.world.store.db.asts := by
      rw [hdb, Yield.addTo, Assembly.fragmentYield_asts, List.append_nil]
    rw [hparse]
    exact hasts
  · obtain ⟨hdir, hkey⟩ := Session.of_mem_origins hnamed hone
    obtain ⟨hdir', hkey'⟩ := Session.of_mem_origins hnamed hother
    rw [hkey, hkey', Origin.key_eq_iff hdir hdir']
    refine or_iff_right fun hsame => hne ?_
    rw [hsame.1, hsame.2]

-- Every file gives a tree, both as a main file and as a test file.
def treeParser : Parser where
  file _ _ _ _ := .ok (some ⟨[], some .null⟩)
  code _ _ := .ok none
  test _ _ _ _ := .ok (some ⟨[], some .null⟩)

def clashing : Coordinator Nat :=
  { twice with
    registry :=
      { twice.registry with
        runtimes := .ofList [("r", fun _ => .done ⟨"r", treeParser, indexResolver⟩)] } }

def clashingConfig : Json :=
  .object [("publisher", .string "p"), ("runtime", .string "r"),
    ("sourceFiles", .strings ["b.js", "test/a.js"]),
    ("test", .object [("sourceFiles", .strings ["a.js", "b.js"]), ("type", .string "m")])]

-- The lists of files at the moment of parsing, with the role, the path and the key of each tree.
def rowsOf : Situation Nat →
    Option (Option (List Path) × Option (List Path) × List (Role × String × String))
  | (.parse session candidates, c) =>
    some (session.state.sourceFiles, session.state.testFiles,
      (session.origins c.world.tree candidates).map fun origin =>
        (origin.role, origin.file.absolute.text, origin.ast.filePath))
  | _ => none

theorem rowsOf_clashing : rowsOf (clashing.after 3 (.configure clashingConfig)) =
    some (some [⟨"/p/b.js"⟩, ⟨"/p/test/a.js"⟩], some [⟨"/p/a.js"⟩, ⟨"/p/b.js"⟩],
      [(.main, "/p/b.js", "b.js"), (.main, "/p/test/a.js", "test/a.js"),
        (.tests, "/p/a.js", "test/a.js"), (.tests, "/p/b.js", "test/b.js")]) := by
  decide +kernel

theorem exists_clashing : ∃ session candidates c one two three four,
    Course clashingConfig clashing (clashing.ahead 3 (.configure clashingConfig))
      (.parse session candidates) c ∧
    session.state.sourceFiles = some [⟨"/p/b.js"⟩, ⟨"/p/test/a.js"⟩] ∧
    session.state.testFiles = some [⟨"/p/a.js"⟩, ⟨"/p/b.js"⟩] ∧
    session.origins c.world.tree candidates = [one, two, three, four] ∧
    [one, two, three, four].map (fun origin =>
      (origin.role, origin.file.absolute.text, origin.ast.filePath)) =
        [(.main, "/p/b.js", "b.js"), (.main, "/p/test/a.js", "test/a.js"),
          (.tests, "/p/a.js", "test/a.js"), (.tests, "/p/b.js", "test/b.js")] := by
  have hcourse := course_ahead 3 (.begin : Course clashingConfig clashing [] _ clashing)
  have hrows := rowsOf_clashing
  generalize clashing.after 3 (.configure clashingConfig) = situation at hcourse hrows
  obtain ⟨moment, c⟩ := situation
  cases moment with
  | parse session candidates =>
    obtain ⟨hmain, hrest⟩ := Prod.mk.inj (Option.some.inj hrows)
    obtain ⟨htests, hrows⟩ := Prod.mk.inj hrest
    have hlength := congrArg List.length hrows
    rw [List.length_map] at hlength
    obtain ⟨one, two, three, four, horigins⟩ := List.length_eq_four.mp hlength
    rw [horigins] at hrows
    exact ⟨session, candidates, c, one, two, three, four, hcourse, hmain, htests, horigins, hrows⟩
  | _ => cases hrows

-- The first main file and the last test file, which are one file, have keys of their own.
theorem clashing_keys_distinct :
    ∃ session candidates c one four,
      Course clashingConfig clashing (clashing.ahead 3 (.configure clashingConfig))
        (.parse session candidates) c ∧
      one ∈ session.origins c.world.tree candidates ∧
      four ∈ session.origins c.world.tree candidates ∧
      (one.role, one.file.absolute) ≠ (four.role, four.file.absolute) ∧
      one.file.absolute = four.file.absolute ∧ one.ast.filePath = "b.js" ∧
      ¬one.Clashes four ∧ ¬four.Clashes one := by
  obtain ⟨session, candidates, c, one, two, three, four, hcourse, -, -, horigins, hrows⟩ :=
    exists_clashing
  simp only [List.map_cons, List.map_nil, List.cons.injEq, Prod.mk.injEq, and_true] at hrows
  obtain ⟨⟨hrole, hpath, hkey⟩, -, -, hrole', hpath', hkey'⟩ := hrows
  have hone : one ∈ session.origins c.world.tree candidates := by simp [horigins]
  have hfour : four ∈ session.origins c.world.tree candidates := by simp [horigins]
  have hne : (one.role, one.file.absolute) ≠ (four.role, four.file.absolute) := by
    simp [hrole, hrole']
  have hiff := (pass_keys_distinct hcourse).2.2 one hone four hfour hne
  rw [hkey, hkey'] at hiff
  have hnone : ¬(one.Clashes four ∨ four.Clashes one) := fun hclash =>
    absurd (hiff.mpr hclash) (by decide)
  exact ⟨session, candidates, c, one, four, hcourse, hone, hfour, hne,
    congrArg Path.mk (hpath.trans hpath'.symm), hkey, not_or.mp hnone⟩

-- Without repetitions in either list, a main file and a test file may yet share a key.
theorem key_shared_below_test :
    ∃ session candidates c one other,
      Course clashingConfig clashing (clashing.ahead 3 (.configure clashingConfig))
        (.parse session candidates) c ∧
      (session.state.sourceFiles.getD []).Nodup ∧ (session.state.testFiles.getD []).Nodup ∧
      one ∈ session.origins c.world.tree candidates ∧
      other ∈ session.origins c.world.tree candidates ∧
      (one.role, one.file.absolute) = (.main, ⟨"/p/test/a.js"⟩) ∧
      (other.role, other.file.absolute) = (.tests, ⟨"/p/a.js"⟩) ∧
      one.ast.filePath = "test/a.js" ∧ other.ast.filePath = "test/a.js" := by
  obtain ⟨session, candidates, c, one, two, three, four, hcourse, hmain, htests, horigins, hrows⟩ :=
    exists_clashing
  simp only [List.map_cons, List.map_nil, List.cons.injEq, Prod.mk.injEq, and_true] at hrows
  obtain ⟨-, ⟨hrole, hpath, hkey⟩, ⟨hrole', hpath', hkey'⟩, -⟩ := hrows
  refine ⟨session, candidates, c, two, three, hcourse, ?_, ?_, by simp [horigins],
    by simp [horigins], ?_, ?_, hkey, hkey'⟩
  · rw [hmain]
    decide
  · rw [htests]
    decide
  · exact Prod.ext hrole (congrArg Path.mk hpath)
  · exact Prod.ext hrole' (congrArg Path.mk hpath')

end Coordinator

end DocPipeline
