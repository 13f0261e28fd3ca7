import DocPipeline.Proofs.Coordinator.History
import DocPipeline.Proofs.Discovery.Find

namespace DocPipeline

variable {ε : Type}

namespace Session

-- The candidates that are kept from the discovery are those of the lists that the session holds.
def Keeps (session : Session ε) : Prop :=
  ∀ found, session.found = some found →
    session.state.Listed session.plan ∧ found = session.chosen

theorem listed_of_hasFilesOf {session : Session ε} {state : RunState}
    (h : state.hasFilesOf session.state) (hl : session.state.Listed session.plan) :
    state.Listed session.plan := by
  obtain ⟨hmain, htests⟩ := Bool.and_eq_true_iff.mp h
  rw [RunState.Listed, isSome_of_sameLists hmain, isSome_of_sameLists htests]
  exact hl

theorem chosen_of_hasFilesOf {session : Session ε} {state : RunState}
    (h : state.hasFilesOf session.state) :
    chosen { session with state, found := none } = session.chosen := by
  obtain ⟨hmain, htests⟩ := Bool.and_eq_true_iff.mp h
  simp only [chosen]
  rw [Candidate.select_congr _ _ hmain]
  cases session.plan.test with
  | none => rfl
  | some test => exact congrArg (Candidates.mk _) (Candidate.select_congr _ _ htests).symm

end Session

namespace Moment

-- Candidates are kept until the first pass begins, and none are kept afterwards.
def Current : Moment ε → Prop
  | start session => session.Keeps
  | parse session _ | edit session | resolve session | prepare session | publish session
  | complete session | completed session _ | idle session | wait session
  | signalled session _ => session.found = none
  | _ => True

end Moment

namespace Flow

private theorem keeps_found_discover (session : Session ε) :
    Keeps (fun _ => True) (discover session) fun result => result.1.found = session.found :=
  keeps_bind (keeps_trivial _) fun _ _ => keeps_bind (keeps_trivial _) fun _ _ =>
    keeps_bind (keeps_trivial _) fun _ _ => keeps_pure rfl

theorem keeps_found_beginPass (session : Session ε) :
    Keeps (fun _ => True) (beginPass session) fun result => result.1.found = none := by
  apply keeps_bind (keeps_trivial _)
  intro state _
  unfold passCandidates
  dsimp only
  split
  · split
    · exact keeps_pure rfl
    · exact keeps_found_discover _
  · exact keeps_found_discover _

theorem keeps_found_regenerate (session : Session ε) :
    Keeps (fun _ => True) (regenerate session) fun again => again.found = session.found :=
  keeps_bind (keeps_trivial _) fun _ _ => keeps_bind (keeps_trivial _) fun _ _ =>
    keeps_bind (keeps_trivial _) fun _ _ => keeps_bind (keeps_trivial _) fun _ _ => keeps_pure rfl

-- What is found before the first pass is what the lists of that moment give.
theorem keeps_current_discoverFirst (session : Session ε) :
    Keeps (fun _ => True) (discoverFirst session) Session.Keeps := by
  intro c _
  have hc : c.Within (.keeping fun _ _ => True) c.machine c.world.metrics.passes {} :=
    ⟨c.meets_any, rfl, ⟨rfl, trivial⟩⟩
  have hfirst := keeps_discoverFirst (Standard.keeping_fair Coordinator.lasting_any) session c hc
  refine ⟨trivial, fun first he => ?_⟩
  obtain ⟨found, ⟨state, hfills, hfound⟩, rfl⟩ := hfirst.2 first he
  cases hfound
  rintro candidates ⟨⟩
  exact ⟨hfills.listed, rfl⟩

theorem keeps_current {moment : Moment ε} (hm : moment.Current) :
    Keeps (fun _ => True) (proceed moment) Moment.Current := by
  cases moment with
  | configure raw => exact keeps_bind (keeps_trivial _) fun _ _ => keeps_pure trivial
  | discover session =>
    exact keeps_bind (keeps_current_discoverFirst session) fun _ h => keeps_pure h
  | start session => exact keeps_bind (keeps_found_beginPass session) fun _ h => keeps_pure h
  | parse session candidates =>
    have hparse : Keeps (fun _ => True) (parse session candidates)
        fun parsed => parsed.found = none :=
      keeps_bind (keeps_trivial _) fun _ _ => keeps_bind (keeps_trivial _) fun _ _ =>
        keeps_bind (keeps_trivial _) fun _ _ => keeps_pure hm
    exact keeps_bind hparse fun _ h => keeps_pure h
  | publish session =>
    have hpublish : Keeps (fun _ => True) (publish session)
        fun published => published.found = none :=
      keeps_bind (keeps_trivial _) fun _ _ => keeps_bind (keeps_trivial _) fun _ _ =>
        keeps_pure hm
    exact keeps_bind hpublish fun _ h => keeps_pure h
  | completed session keepAlive =>
    apply keeps_bind (keeps_trivial _)
    intro _ _
    cases keepAlive with
    | true => exact keeps_pure hm
    | false => exact keeps_pure trivial
  | wait session =>
    apply keeps_bind (keeps_trivial _)
    intro answer _
    cases answer with
    | signal signal => exact keeps_pure hm
    | noHandles => exact keeps_bind (keeps_trivial _) fun _ _ => keeps_pure trivial
    | pending => exact keeps_pure hm
  | signalled session signal =>
    cases signal with
    | regenerate =>
      apply keeps_bind (keeps_found_regenerate session)
      intro again h
      refine keeps_pure fun found hf => ?_
      rw [h, hm] at hf
      cases hf
    | shutdown => exact keeps_bind (keeps_trivial _) fun _ _ => keeps_pure trivial
  | shutDown plan => exact keeps_bind (keeps_trivial _) fun _ _ => keeps_pure trivial
  | returned result => exact keeps_pure trivial
  | _ => exact keeps_bind (keeps_trivial _) fun _ _ => keeps_pure hm

-- The candidates of a pass are those that looking for them now would find.
theorem exec_passCandidates {session : Session ε} (hk : session.Keeps) (state : RunState)
    (c : Coordinator ε) :
    (exec (passCandidates { session with state } session.state) c).1 =
      (exec (discover { session with state, found := none }) c).1 := by
  unfold passCandidates
  dsimp only
  split
  next found hf =>
    obtain ⟨hlisted, rfl⟩ := hk found hf
    split
    next hsame =>
      have hfiles : state.hasFilesOf session.state = true := hsame
      have hstill : state.Listed session.plan := Session.listed_of_hasFilesOf hfiles hlisted
      obtain ⟨metrics, log, he⟩ :=
        exec_discover_of_listed { session with state, found := none } hstill c
      rw [he, Session.chosen_of_hasFilesOf hfiles]
      rfl
    next => rfl
  next => rfl

end Flow

theorem Course.current {raw : Json} {c₀ c : Coordinator ε} {trail : List (Situation ε)}
    {moment : Moment ε} (h : Course raw c₀ trail moment c) : moment.Current := by
  induction h with
  | begin => trivial
  | @step trail moment c _ _ ih =>
    rcases he : exec (Flow.advance moment) c with ⟨failure | next, c'⟩
    · rw [Coordinator.step_of_error he]
      trivial
    · rw [Coordinator.step_of_ok he]
      obtain ⟨machine, log, hproceed⟩ := Flow.advance_ok he
      exact ((Flow.keeps_current ih).of_ok trivial hproceed).2
  | meddle _ _ ih => exact ih

namespace Flow

-- What a successful search finds. The source of tests is expanded in the world as the search for
-- the main files leaves it.
theorem discover_eq_ok {session : Session ε} {found : Session ε × Candidates}
    {c c' : Coordinator ε} (h : exec (discover session) c = (.ok found, c')) :
    ∃ main world, exec (Discovery.findMain c.hydrator session.plan session.state) c.world =
        (.ok main, world) ∧
      ∃ tests world', exec (Discovery.findTests c.hydrator session.plan main.1) world =
        (.ok tests, world') ∧
      found = ({ session with state := tests.1 }, ⟨main.2, tests.2⟩) := by
  rw [discover, exec_bind_of_ok (exec_get c)] at h
  obtain ⟨main, c₁, hmain, h⟩ := exec_bind_eq_ok h
  obtain ⟨tests, c₂, htests, h⟩ := exec_bind_eq_ok h
  obtain ⟨world, hfindMain, rfl⟩ := work_eq_ok hmain
  obtain ⟨world', hfindTests, rfl⟩ := work_eq_ok htests
  cases h
  exact ⟨main, world, hfindMain, tests, world', hfindTests, rfl⟩

-- The records that the files of a pass give are stored in the order of the candidates.
theorem parseFiles_records (session : Session ε) (candidates : Candidates) (c : Coordinator ε) :
    ∃ skipped c', exec (parseFiles session candidates) c = (.ok skipped, c') ∧
      c'.world.store.db.records = c.world.store.db.records ++
        candidates.main.flatMap (fun file =>
          ((session.sources c.world.tree).fileResult file).records) ++
        match session.plan.test with
        | none => []
        | some test => candidates.tests.flatMap fun file =>
            ((session.sources c.world.tree).testResult test.type file).records := by
  obtain ⟨store, metrics, log, he, hdb, _⟩ := exec_parseFiles session candidates c
  refine ⟨_, _, he, ?_⟩
  simp only [hdb, Yield.addTo, Session.fileYield, List.append_assoc]
  cases session.plan.test <;> rfl

end Flow

namespace Coordinator

-- In every pass of every run, whatever plugins did to the lists of files: once they were told that
-- the pass begins, it goes on with the candidates that looking for them now finds, or fails as that
-- does. These are the files of the lists as the plugins left them that the patterns accept, where
-- the hydrator makes the list that is not set, and the records of just these are stored, in their
-- order.
theorem pass_parses_listed_files {raw : Json} {c₀ c : Coordinator ε} {trail : List (Situation ε)}
    {session : Session ε} (h : Course raw c₀ trail (.start session) c) {c₁ c₂ : Coordinator ε}
    {state : RunState} (he : exec (Flow.enter .generating) c = (.ok (), c₁))
    (hd : exec (Flow.dispatch (.start session.plan session.package) session.state) c₁ =
      (.ok state, c₂)) :
    let plan := session.plan
    let afresh := exec (Flow.discover { session with state, found := none }) c₂
    (exec (Flow.advance (.start session)) c).1 =
        afresh.1.map (fun found => .parse found.1 found.2) ∧
      ∀ begun candidates, afresh.1 = .ok (begun, candidates) →
        (∃ files, begun.state.sourceFiles = some files ∧
          Discovery.Listing c₂.hydrator plan.dir plan.source c₂.world state.sourceFiles files ∧
          candidates.main = Candidate.select plan.dir files plan.filter) ∧
        (match plan.test with
        | none => candidates.tests = []
        | some test => ∃ main world testFiles,
            exec (Discovery.findMain c₂.hydrator plan state) c₂.world = (.ok main, world) ∧
            begun.state.testFiles = some testFiles ∧
            Discovery.Listing c₂.hydrator plan.dir test.source world state.testFiles testFiles ∧
            candidates.tests = Candidate.select plan.dir testFiles test.filter) ∧
        ∀ c₃, ∃ skipped c₄, exec (Flow.parseFiles begun candidates) c₃ = (.ok skipped, c₄) ∧
          c₄.world.store.db.records = c₃.world.store.db.records ++
            candidates.main.flatMap (fun file =>
              ((session.sources c₃.world.tree).fileResult file).records) ++
            match plan.test with
            | none => []
            | some test => candidates.tests.flatMap fun file =>
                ((session.sources c₃.world.tree).testResult test.type file).records := by
  intro plan afresh
  have hkeeps : session.Keeps := h.current
  constructor
  · have hadvance : exec (Flow.advance (.start session)) c =
        exec (do
          let taken ← Flow.passCandidates { session with state } session.state
          return Moment.parse taken.1 taken.2) c₂ := by
      simp only [Flow.advance, Flow.enterTarget, Moment.target?]
      rw [exec_bind_of_ok he, Flow.proceed, Flow.beginPass, exec_bind, exec_bind_of_ok hd,
        exec_bind]
    have hcandidates : _ = afresh.1 := Flow.exec_passCandidates hkeeps state c₂
    rw [hadvance, exec_bind, ← hcandidates]
    rcases exec (Flow.passCandidates { session with state } session.state) c₂ with
      ⟨failure | ⟨taken, candidates⟩, c₃⟩ <;> rfl
  · intro begun candidates hfound
    have hafresh : afresh = (.ok (begun, candidates), afresh.2) := Prod.ext hfound rfl
    obtain ⟨main, world, hmain, tests, world', htests, hresult⟩ := Flow.discover_eq_ok hafresh
    cases hresult
    obtain ⟨⟨files, hfiles, hlisting, hselect⟩, hkept⟩ := Discovery.findMain_eq_ok hmain
    obtain ⟨hchosen, hsource⟩ := Discovery.findTests_eq_ok htests
    refine ⟨⟨files, hsource.trans hfiles, hlisting, hselect⟩, ?_, fun c₃ => ?_⟩
    · change match session.plan.test with | none => _ | some test => _
      cases ht : session.plan.test with
      | none =>
        rw [ht] at hchosen
        exact hchosen
      | some test =>
        rw [ht] at hchosen
        obtain ⟨testFiles, hset, hmade, hselected⟩ := hchosen
        exact ⟨main, world, testFiles, hmain, hset, hkept ▸ hmade, hselected⟩
    · exact Flow.parseFiles_records _ _ c₃

section Edited

-- A plugin that adds a file to the list in the first pass, and takes the list away in the second.
def editingPlugin : Plugin Nat :=
  .custom "editing" fun {h} occasion =>
    match h, occasion with
    | .start, .start _ _ => .look fun passes state => .edit
        { state with
          sourceFiles := if passes = 0 then state.sourceFiles.map (· ++ [⟨"c.js"⟩]) else none }
        (.done ())
    | .complete, .complete _ handle _ =>
      .look fun passes _ => .remember (passes + 1) (.edit true
        (if passes = 0 then .send handle .regenerate fun _ => .done () else .done ()))
    | _, _ => .done ()

def edited : Coordinator Nat :=
  { twice with
    waiting := [editingPlugin]
    hydrator := fun _ patterns => .done ⟨patterns.map Path.mk, patterns⟩ }

def editedConfig : Json :=
  .object [("publisher", .string "p"), ("runtime", .string "r"),
    ("sourceFiles", .strings ["a.js", "b.js"]), ("source", .strings ["y.js", "x.js", "x.txt"])]

-- What the plugins leave of the list of main files when a pass begins, and which of them the pass
-- goes on with.
def listsOf (c : Coordinator Nat) : Moment Nat → Option (Option (List String) × List String)
  | .start session =>
    match exec (Flow.enter .generating) c with
    | (.ok (), c) =>
      match exec (Flow.dispatch (.start session.plan session.package) session.state) c with
      | (.ok state, c) =>
        match exec (Flow.discover { session with state, found := none }) c with
        | (.ok (_, candidates), _) =>
          some (state.sourceFiles.map (·.map (·.text)), candidates.main.map (·.relative))
        | _ => none
      | _ => none
    | _ => none
  | _ => none

theorem pass_parses_listed_edited :
    ∃ trail session c c₁ c₂ state, Course editedConfig edited trail (.start session) c ∧
      exec (Flow.enter .generating) c = (.ok (), c₁) ∧
      exec (Flow.dispatch (.start session.plan session.package) session.state) c₁ =
        (.ok state, c₂) ∧
      state.sourceFiles = none ∧ ∃ begun candidates,
        (exec (Flow.advance (.start session)) c).1 = .ok (.parse begun candidates) ∧
        candidates.main.map (·.relative) = ["y.js", "x.js"] := by
  have hbegin : Course editedConfig edited [] (.configure editedConfig) edited := .begin
  have hcourse := course_ahead 13 hbegin
  have hlists : listsOf (edited.after 13 (.configure editedConfig)).2
      (edited.after 13 (.configure editedConfig)).1 = some (none, ["y.js", "x.js"]) := by
    decide +kernel
  generalize edited.after 13 (.configure editedConfig) = situation at hcourse hlists
  obtain ⟨moment, c⟩ := situation
  dsimp only at hcourse hlists
  unfold listsOf at hlists
  split at hlists
  next _ session =>
    split at hlists
    next c₁ he =>
      split at hlists
      next state c₂ hd =>
        split at hlists
        next begun candidates c₃ hfound =>
          simp only [Option.some.injEq, Prod.mk.injEq, Option.map_eq_none_iff] at hlists
          obtain ⟨hnone, hchosen⟩ := hlists
          have hparses := (pass_parses_listed_files hcourse he hd).1
          rw [hfound] at hparses
          exact ⟨_, session, c, c₁, c₂, state, hcourse, he, hd, hnone, begun, candidates, hparses,
            hchosen⟩
        next => cases hlists
      next => cases hlists
    next => cases hlists
  next => cases hlists

end Edited

end Coordinator

end DocPipeline
