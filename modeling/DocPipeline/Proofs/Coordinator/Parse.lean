import DocPipeline.Coordinator.Pass
import DocPipeline.Proofs.Parsing.Assembly

namespace DocPipeline

namespace Session

variable {ε : Type}

def sources (session : Session ε) (tree : Tree) : Sources :=
  .of tree session.plan session.runtime session.package

-- What the files of a pass yield. Test files are parsed only if the plan has tests.
def fileYield (session : Session ε) (tree : Tree) (candidates : Candidates) : Yield :=
  (Assembly.mainYield (session.sources tree) candidates.main).append
    (match session.plan.test with
    | none => {}
    | some test => Assembly.testYield (session.sources tree) test.type candidates.tests)

end Session

namespace Flow

variable {ε : Type}

-- An assembly that gives an answer changes the store as it yields, and besides that only the
-- counters and the log.
theorem exec_assemble {α : Type} {assembling : Assembling α} {y : Yield}
    (h : Adds assembling y) (c : Coordinator ε) :
    ∃ store metrics log,
      exec (assemble assembling) c =
        (.ok y.skipped, { c with world := { c.world with store, metrics, log } }) ∧
      store.db = y.addTo c.world.store.db ∧ metrics.course = c.world.metrics.course := by
  obtain ⟨n, a, ha, hdb, hs, hp⟩ := h ⟨c.world.store, c.world.metrics, c.world.log, []⟩
  refine ⟨a.store, a.metrics, a.log, ?_, hdb, hp⟩
  have hw : c.world.assemble assembling = (.ok n, a.skipped,
      { c.world with store := a.store, metrics := a.metrics, log := a.log }) := by
    have hr : assembling.run.run ⟨c.world.store, c.world.metrics, c.world.log, []⟩ =
      (.ok n, a) := ha
    simp only [World.assemble, hr]
  simp only [assemble, exec_bind, exec_get, exec_set, hw, exec_pure]
  rw [hs, List.nil_append]

theorem adds_files (session : Session ε) (tree : Tree) (candidates : Candidates) :
    Adds (do
      let _ ← Assembly.addSources (session.sources tree) .skip candidates.main
      match session.plan.test with
      | none => return
      | some test =>
        let _ ← Assembly.addTests (session.sources tree) test.type .skip candidates.tests)
      (session.fileYield tree candidates) := by
  apply Assembly.adds_bind (Assembly.adds_addSources _ candidates.main)
  intro _
  cases session.plan.test with
  | none => exact Assembly.adds_pure ()
  | some test =>
    have h := Assembly.adds_bind
      (Assembly.adds_addTests (session.sources tree) test.type candidates.tests)
      fun _ => Assembly.adds_pure ()
    rw [Yield.append_nil] at h
    exact h

theorem exec_parseFiles (session : Session ε) (candidates : Candidates) (c : Coordinator ε) :
    ∃ store metrics log,
      exec (parseFiles session candidates) c =
        (.ok (session.fileYield c.world.tree candidates).skipped,
          { c with world := { c.world with store, metrics, log } }) ∧
      store.db = (session.fileYield c.world.tree candidates).addTo c.world.store.db ∧
      metrics.course = c.world.metrics.course := by
  rw [parseFiles, exec_bind_of_ok (exec_get c)]
  exact exec_assemble (adds_files session c.world.tree candidates) c

theorem exec_parseFragments (session : Session ε) (fragments : List Fragment)
    (c : Coordinator ε) :
    ∃ store metrics log,
      exec (parseFragments session fragments) c =
        (.ok (Assembly.fragmentYield (session.sources c.world.tree) fragments).skipped,
          { c with world := { c.world with store, metrics, log } }) ∧
      store.db = (Assembly.fragmentYield (session.sources c.world.tree) fragments).addTo
        c.world.store.db ∧
      metrics.course = c.world.metrics.course := by
  rw [parseFragments, exec_bind_of_ok (exec_get c)]
  exact exec_assemble (Assembly.adds_addFragments _ fragments) c

-- The parse phase fails only if a plugin does.
theorem exec_parse {session : Session ε} {candidates : Candidates} {c c₁ c₂ : Coordinator ε}
    {skipped : List InvalidCode} {fragments : List Fragment}
    (hf : exec (parseFiles session candidates) c = (.ok skipped, c₁))
    (hv : exec (dispatch (.handleVirtual session.plan) []) c₁ = (.ok fragments, c₂)) :
    ∃ store metrics log,
      exec (parse session candidates) c =
        (.ok { session with state := { session.state with invalidCode := skipped ++
            (Assembly.fragmentYield (session.sources c.world.tree) fragments).skipped } },
          { c₂ with world := { c₂.world with store, metrics, log } }) ∧
      store.db = (Assembly.fragmentYield (session.sources c.world.tree) fragments).addTo
        c₂.world.store.db := by
  obtain ⟨store, metrics, log, hs, hdb, _⟩ := exec_parseFragments session fragments c₂
  refine ⟨store, metrics, log, ?_, hdb⟩
  rw [parse, exec_bind_of_ok hf, exec_bind_of_ok hv, exec_bind_of_ok hs]
  rfl

-- Parsing from an emptied database loses, repeats and reorders nothing. No file makes it fail, and
-- where the plugins supply fragments and leave the database alone, it holds afterwards what the
-- parser gave for the files and the fragments, in their order, with a mark on the records of
-- fragments. The code that was skipped is that of every failure, in the same order.
theorem parse_assembles (session : Session ε) (candidates : Candidates) (c : Coordinator ε)
    (hrecords : c.world.store.db.records = []) (hasts : c.world.store.db.asts = []) :
    ∃ skipped c₁, exec (parseFiles session candidates) c = (.ok skipped, c₁) ∧
      ∀ (fragments : List Fragment) (c₂ : Coordinator ε),
        exec (dispatch (.handleVirtual session.plan) []) c₁ = (.ok fragments, c₂) →
        c₂.world.store.db = c₁.world.store.db →
        let sources := session.sources c.world.tree
        let skippedCode :=
          candidates.main.flatMap (fun file => (sources.fileResult file).skipped file.relative) ++
          (match session.plan.test with
          | none => []
          | some test =>
            candidates.tests.flatMap fun file =>
              (sources.testResult test.type file).skipped file.relative) ++
          fragments.flatMap fun fragment =>
            (sources.fragmentResult fragment).skipped fragment.label
        ∃ parsed c₃, exec (parse session candidates) c = (.ok parsed, c₃) ∧
          c₃.world.store.db.records =
            candidates.main.flatMap (fun file => (sources.fileResult file).records) ++
            (match session.plan.test with
            | none => []
            | some test =>
              candidates.tests.flatMap fun file => (sources.testResult test.type file).records) ++
            fragments.flatMap (fun fragment =>
              (sources.fragmentResult fragment).records.map fun record =>
                { record with isVirtual := true }) ∧
          c₃.world.store.db.asts =
            candidates.main.flatMap (fun file => (sources.fileResult file).asts file.relative) ++
            (match session.plan.test with
            | none => []
            | some test =>
              candidates.tests.flatMap fun file =>
                (sources.testResult test.type file).asts ("test/" ++ file.relative)) ∧
          parsed = { session with state := { session.state with invalidCode := skippedCode } } := by
  obtain ⟨store, metrics, log, hf, hdb, _⟩ := exec_parseFiles session candidates c
  refine ⟨_, _, hf, fun fragments c₂ hv hkeep => ?_⟩
  obtain ⟨last, _, _, hp, hlast⟩ := exec_parse hf hv
  refine ⟨_, _, hp, ?_, ?_, ?_⟩
  · simp only [hlast, hkeep, hdb, Yield.addTo, hrecords, List.nil_append, Session.fileYield]
    cases session.plan.test <;> rfl
  · simp only [hlast, hkeep, hdb, Yield.addTo, hasts, List.nil_append, Session.fileYield,
      Assembly.fragmentYield_asts, List.append_nil]
    cases session.plan.test <;> rfl
  · simp only [Session.fileYield]
    cases session.plan.test <;> rfl

-- A parser that gives records for one file, fails for another, and finds nothing in a third.
def mixedParser : Parser where
  file _ _ file _ :=
    if file = ⟨"/p/a.js"⟩ then .ok (some ⟨[{ kind := .file }, { kind := .entity "class" }], some .null⟩)
    else if file = ⟨"/p/bad.js"⟩ then .error ((Failure.text "missing brace").note "unreadable")
    else .ok none
  code _ code :=
    if code = "" then .error (.text "no code") else .ok (some ⟨[{ kind := .entity "global" }], some .null⟩)
  test _ type _ _ := .ok (some ⟨[{ kind := .ofText type }], some .null⟩)

def mixedSession : Session Unit where
  plan := { (default : Plan) with dir := ⟨"/p"⟩, test := some ⟨"mocha", none, default⟩ }
  state := { invalidCode := [⟨"old.js", "of an earlier pass"⟩] }
  package := {}
  runtime := ⟨"mixed", mixedParser, indexResolver⟩
  publisher := fun _ _ => .done ()

def mixedCandidates : Candidates :=
  ⟨[⟨⟨"/p/bad.js"⟩, "bad.js"⟩, ⟨⟨"/p/a.js"⟩, "a.js"⟩, ⟨⟨"/p/c.js"⟩, "c.js"⟩],
    [⟨⟨"/p/t.js"⟩, "t.js"⟩]⟩

def fragmentPlugin : Plugin Unit :=
  .custom "fragments" fun {h} _ =>
    match h with
    | .handleVirtual => .edit [⟨"globals", "x"⟩, ⟨"nothing", ""⟩] (.done ())
    | _ => .done ()

def mixedCoordinator : Coordinator Unit where
  dir := ⟨"/p"⟩
  registry := .builtin
  dispatcher := { plugins := [.diagnostics {}, fragmentPlugin] }
  world := { tree := .empty, log := ⟨none, []⟩, host := () }

theorem parse_mixed :
    ∃ parsed c, exec (parse mixedSession mixedCandidates) mixedCoordinator = (.ok parsed, c) ∧
      c.world.store.db.records.map Record.label = ["file:", "class:", "mocha:", "global:!"] ∧
      c.world.store.db.asts.map (·.filePath) = ["a.js", "test/t.js"] ∧
      parsed.state.invalidCode = [⟨"bad.js", "unreadable"⟩, ⟨"nothing", "no code"⟩] := by
  obtain ⟨skipped, c₁, hf, h⟩ :=
    parse_assembles mixedSession mixedCandidates mixedCoordinator rfl rfl
  have hc : c₁ = (exec (parseFiles mixedSession mixedCandidates) mixedCoordinator).2 := by rw [hf]
  subst hc
  obtain ⟨parsed, c, hp, hrecords, hasts, rfl⟩ := h [⟨"globals", "x"⟩, ⟨"nothing", ""⟩] _ rfl rfl
  exact ⟨_, c, hp, by rw [hrecords]; decide, by rw [hasts]; decide, by decide⟩

end Flow

end DocPipeline
