import DocPipeline.Proofs.Coordinator.Course
import DocPipeline.Proofs.Coordinator.Edits
import DocPipeline.Proofs.Coordinator.Upkeep

namespace DocPipeline

variable {ε β : Type}

-- What is fixed before the first pass: a session in which nothing has happened yet, what the
-- plugins and the resolver do, and the files.
structure Blueprint (ε : Type) where
  session : Session ε
  edits : List (Plan → Edits)
  complete : Contents → Contents
  tree : Tree

namespace Moment

def isStart : Moment ε → Bool
  | start _ => true
  | _ => false

def isPublish : Moment ε → Bool
  | publish _ => true
  | _ => false

-- No pass comes any more.
def isEnding : Moment ε → Bool
  | shutDown _ | returned _ => true
  | _ => false

-- Whether the moment belongs to the pass that was begun last.
def underWay : Moment ε → Nat
  | start _ => 0
  | _ => 1

theorem underWay_add_isStart (moment : Moment ε) :
    moment.underWay + moment.isStart.toNat = 1 := by
  cases moment <;> rfl

end Moment

namespace Blueprint

section Outcome

variable (B : Blueprint ε)

def plan : Plan := B.session.plan

def fragments : List Fragment := B.edits.foldl (fun fs e => (e B.plan).fragments fs) []

def yield : Yield :=
  (B.session.fileYield B.tree B.session.chosen).append
    (Assembly.fragmentYield (B.session.sources B.tree) B.fragments)

def parsed : Contents := { records := B.yield.records, asts := B.yield.asts }

def edited : Contents :=
  let records := B.edits.foldl (fun rs e => (e B.plan).records rs) B.parsed.records
  let shown := if B.plan.includeSource then records else (stripSource records).1
  B.edits.foldl (fun cs e => (e B.plan).contents cs) { B.parsed with records := shown }

def resolved : Contents := B.complete B.edited

-- The session of a pass, with the code that the pass before it skipped, or that it skipped itself.
def skipping (code : List InvalidCode) : Session ε :=
  { B.session with state := { B.session.state with invalidCode := code } }

def passed : Session ε := B.skipping B.yield.skipped

-- The collaborators do what the blueprint says.
structure Sound (part : Tree → β) : Prop where
  unfound : B.session.found = none
  unlinked : B.session.state.menuLinks = []
  listed : B.session.state.Listed B.plan
  sees : B.session.runtime.parser.Sees part
  completes : B.session.runtime.resolver.CompletesBy B.complete
  publisher : B.session.publisher.OnlyLinks

def Serves (c : Coordinator ε) : Prop :=
  List.Forall₂ Plugin.EditsBy c.dispatcher.plugins B.edits

variable {B} in
theorem Serves.of_alike {c c' : Coordinator ε} (hs : B.Serves c) (ha : c.Alike c') :
    B.Serves c' := by
  rw [Serves, ha.dispatcher]
  exact hs

-- Where a run stands in a pass that begins with so many resets behind it.
def Stands (generation : Nat) : Moment ε → Coordinator ε → Prop
  | .start session, c =>
    (∃ code found, session = { B.skipping code with found } ∧
      ∀ candidates, found = some candidates → candidates = B.session.chosen) ∧
      c.world.store.db = ({} : Contents).at generation
  | .parse session candidates, c =>
    (∃ code, session = B.skipping code) ∧ candidates = B.session.chosen ∧
      c.world.store.db = ({} : Contents).at generation
  | .edit session, c => session = B.passed ∧ c.world.store.db = B.parsed.at generation
  | .resolve session, c => session = B.passed ∧ c.world.store.db = B.edited.at generation
  | .prepare session, c | .publish session, c =>
    session = B.passed ∧ c.world.store.db = B.resolved.at generation
  | .complete session, c | .completed session _, c | .idle session, c | .wait session, c
  | .signalled session _, c =>
    (∃ menuLinks, session = { B.passed with state := { B.passed.state with menuLinks } }) ∧
      c.world.store.db.generation = generation
  | _, _ => False

variable {B} in
-- Nothing but the database matters of the world.
theorem Stands.of_db {generation : Nat} {moment : Moment ε} {c c' : Coordinator ε}
    (h : B.Stands generation moment c) (hdb : c'.world.store.db = c.world.store.db) :
    B.Stands generation moment c' := by
  cases moment <;> simp only [Stands, hdb] at h ⊢ <;> exact h

end Outcome

theorem foldl_update (plan : Plan) (edits : List (Plan → Edits)) (contents : Contents)
    (generation : Nat) :
    edits.foldl (fun db e => (e plan).update db) (contents.at generation) =
      (edits.foldl (fun cs e => (e plan).contents cs) contents).at generation := by
  induction edits generalizing contents with
  | nil => rfl
  | cons e edits ih => exact ih ((e plan).contents contents)

section Steps

variable {B : Blueprint ε} {part : Tree → β} {c c' : Coordinator ε} {generation : Nat}

-- The candidates are those that were found first, or they are selected again from lists that have
-- not changed.
theorem beginPass_repeats (hB : B.Sound part) (hs : B.Serves c) {code : List InvalidCode}
    {found : Option Candidates} (hf : ∀ candidates, found = some candidates →
      candidates = B.session.chosen) {result : Session ε × Candidates}
    (he : exec (Flow.beginPass { B.skipping code with found }) c = (.ok result, c')) :
    result = (B.skipping code, B.session.chosen) ∧ B.Serves c' ∧
      c'.world.store.db = c.world.store.db := by
  obtain ⟨state, c₁, hd, hc⟩ := exec_bind_eq_ok he
  obtain ⟨hserves, hdb⟩ := Flow.dispatch_store (h := .start) nofun hd hs
  obtain rfl := Flow.dispatch_start hd hs
  obtain ⟨metrics, log, hdiscover⟩ := Flow.exec_discover_of_listed (B.skipping code) hB.listed c₁
  have htaken : { B.skipping code with found := none } = B.skipping code := by
    simp only [skipping, hB.unfound]
  have hagain : exec (Flow.discover (B.skipping code)) c₁ = (.ok result, c') →
      result = (B.skipping code, B.session.chosen) ∧ B.Serves c' ∧
        c'.world.store.db = c.world.store.db := by
    rw [hdiscover]
    rintro ⟨⟩
    exact ⟨rfl, hserves, hdb⟩
  unfold Flow.passCandidates at hc
  dsimp only at hc
  rw [htaken] at hc
  split at hc
  · next candidates =>
    split at hc
    · cases hc
      exact ⟨by rw [hf candidates rfl], hserves, hdb⟩
    · exact hagain hc
  · exact hagain hc

-- The files yield the same as long as the parser sees the same of the tree.
theorem fileYield_eq (hB : B.Sound part) {tree : Tree} (ht : part tree = part B.tree)
    (candidates : Candidates) :
    B.session.fileYield tree candidates = B.session.fileYield B.tree candidates := by
  have hfile : ∀ file, (B.session.sources tree).fileResult file =
      (B.session.sources B.tree).fileResult file := fun file =>
    hB.sees.file ht B.session.plan.dir file.absolute (B.session.package.hint B.session.plan.dir)
  have htest : ∀ type file, (B.session.sources tree).testResult type file =
      (B.session.sources B.tree).testResult type file := fun type file =>
    hB.sees.test ht type B.session.plan.dir file.absolute
  simp only [Session.fileYield, Assembly.mainYield, Assembly.testYield, hfile, htest]

theorem parse_repeats (hB : B.Sound part) (hs : B.Serves c) (code : List InvalidCode)
    (ht : part c.world.tree = part B.tree)
    (hdb : c.world.store.db = ({} : Contents).at generation) {parsed : Session ε}
    (he : exec (Flow.parse (B.skipping code) B.session.chosen) c = (.ok parsed, c')) :
    parsed = B.passed ∧ B.Serves c' ∧ c'.world.store.db = B.parsed.at generation := by
  obtain ⟨store, metrics, log, hf, hstore, _⟩ :=
    Flow.exec_parseFiles (B.skipping code) B.session.chosen c
  have hyield : (B.skipping code).fileYield c.world.tree B.session.chosen =
    B.session.fileYield B.tree B.session.chosen := fileYield_eq hB ht B.session.chosen
  rw [hyield] at hf hstore
  obtain ⟨skipped, c₁, hf', hrest⟩ := exec_bind_eq_ok he
  obtain ⟨fragments, c₂, hv, _⟩ := exec_bind_eq_ok hrest
  cases hf.symm.trans hf'
  obtain ⟨hserves, hkeep⟩ := Flow.dispatch_store (h := .handleVirtual) nofun hv hs
  obtain rfl : fragments = B.fragments := Flow.dispatch_handleVirtual hv hs
  obtain ⟨last, metrics', log', hp, hlast⟩ := Flow.exec_parse hf hv
  cases hp.symm.trans he
  refine ⟨rfl, hserves, ?_⟩
  have hdb₂ : c₂.world.store.db = store.db := hkeep
  simp only [hlast, hdb₂, hstore, hdb]
  rfl

theorem editRecords_repeats (hs : B.Serves c) (hdb : c.world.store.db = B.parsed.at generation)
    (he : exec (Flow.editRecords B.plan) c = (.ok (), c')) :
    B.Serves c' ∧ c'.world.store.db = B.edited.at generation := by
  have ht : exec (Flow.editStore .take) c =
    (.ok (), { c with world := { c.world with store := c.world.store.take.1 } }) := rfl
  rw [Flow.editRecords, exec_bind_of_ok (exec_get c), exec_bind_of_ok ht] at he
  obtain ⟨records, c₁, hdata, he₁⟩ := exec_bind_eq_ok he
  obtain ⟨shown, c₂, hshow, he₂⟩ := exec_bind_eq_ok he₁
  obtain ⟨_, c₃, hreplace, he₃⟩ := exec_bind_eq_ok he₂
  obtain ⟨_, c₄, hdocDb, he₄⟩ := exec_bind_eq_ok he₃
  rw [exec_bind_of_ok (exec_get c₄)] at he₄
  obtain ⟨hs₁, hdb₁⟩ := Flow.dispatch_store (h := .handleDocData) nofun hdata hs
  obtain rfl := Flow.dispatch_handleDocData hdata hs
  obtain ⟨ha₂, hshown⟩ :=
    (Flow.keeps_withoutSource (Coordinator.lenient_alike c₁) _ _).of_ok (.refl c₁) hshow
  have hs₂ : B.Serves c₂ := Serves.of_alike hs₁ ha₂
  have hs₃ : B.Serves c₃ ∧ c₃.world.store.db = { c₂.world.store.db with records := shown } := by
    cases hreplace
    exact ⟨hs₂, rfl⟩
  obtain ⟨hs₄, hdb₄⟩ := Flow.dispatch_handleDocDb hdocDb hs₃.1
  have ha := ((Flow.keeps_note (Coordinator.lenient_alike c₄) _ _).of_ok (.refl c₄) he₄).1
  refine ⟨Serves.of_alike hs₄ ha, ?_⟩
  have hbefore : c₃.world.store.db =
      ({ B.parsed with records := shown } : Contents).at generation := by
    rw [hs₃.2, ha₂.store, hdb₁, Store.take, hdb]
    rfl
  rw [ha.store, hdb₄, hbefore, foldl_update, hshown, hdb]
  rfl

theorem resolve_repeats (hB : B.Sound part) (hs : B.Serves c)
    (hdb : c.world.store.db = B.edited.at generation)
    (he : exec (Flow.resolve B.passed) c = (.ok (), c')) :
    B.Serves c' ∧ c'.world.store.db = B.resolved.at generation := by
  rw [Flow.resolve, exec_bind_of_ok (exec_get c)] at he
  obtain ⟨_, c₁, hedit, he₁⟩ := exec_bind_eq_ok he
  cases hok : (B.session.runtime.resolver c.world.store.db).2 with
  | error failure =>
    have herror : (B.passed.runtime.resolver c.world.store.db).2 = .error failure := hok
    rw [herror] at he₁
    cases he₁
  | ok _ =>
    have hok' : (B.passed.runtime.resolver c.world.store.db).2 = .ok () := hok
    rw [hok'] at he₁
    cases he₁
    cases hedit
    refine ⟨hs, ?_⟩
    have h := hB.completes c.world.store.db hok
    rw [hdb] at h
    change (B.session.runtime.resolver c.world.store.db).1 = _
    rw [hdb]
    exact h

theorem preparePublishing_repeats (hs : B.Serves c) {plan : Plan}
    (he : exec (Flow.preparePublishing plan) c = (.ok (), c')) :
    B.Serves c' ∧ c'.world.store.db = c.world.store.db := by
  have ha :=
    ((Flow.keeps_preparePublishing (Coordinator.lenient_alike c) plan).of_ok (.refl c) he).1
  exact ⟨hs.of_alike ha, by rw [ha.store]⟩

theorem callPublisher_repeats (hB : B.Sound part) (hs : B.Serves c) {state : RunState}
    (he : exec (Flow.callPublisher B.passed) c = (.ok state, c')) :
    (∃ menuLinks, state = { B.passed.state with menuLinks }) ∧ B.Serves c' ∧
      c'.world.store.db.generation = c.world.store.db.generation := by
  simp only [Flow.callPublisher, exec_mk] at he
  have hp : B.passed.publisher.OnlyLinks := hB.publisher
  have hlinks := hp B.passed.plan B.passed.package B.passed.state c.world
  generalize (B.passed.publisher B.passed.plan B.passed.package).run B.passed.state c.world =
    outcome at he hlinks
  rcases outcome with ⟨_ | _, left, world⟩
  · cases he
  · cases he
    exact ⟨(hlinks rfl).1, hs, (hlinks rfl).2⟩

theorem publish_repeats (hB : B.Sound part) (hs : B.Serves c) {published : Session ε}
    (he : exec (Flow.publish B.passed) c = (.ok published, c')) :
    (∃ menuLinks, published = { B.passed with state := { B.passed.state with menuLinks } }) ∧
      B.Serves c' ∧ c'.world.store.db.generation = c.world.store.db.generation := by
  obtain ⟨state, c₁, hcall, he₁⟩ := exec_bind_eq_ok he
  obtain ⟨_, c₂, hreport, he₂⟩ := exec_bind_eq_ok he₁
  cases he₂
  obtain ⟨⟨menuLinks, rfl⟩, hs₁, hgeneration⟩ := callPublisher_repeats hB hs hcall
  have ha :=
    ((Flow.keeps_reportPass (Coordinator.lenient_alike c₁) _).of_ok (.refl c₁) hreport).1
  exact ⟨⟨menuLinks, rfl⟩, hs₁.of_alike ha, by rw [ha.store, hgeneration]⟩

theorem complete_repeats (hs : B.Serves c) {session : Session ε} {keepAlive : Bool}
    (he : exec (Flow.complete session) c = (.ok keepAlive, c')) :
    B.Serves c' ∧ c'.world.store.db = c.world.store.db := by
  obtain ⟨handle, c₁, hmint, he₁⟩ := exec_bind_eq_ok he
  obtain ⟨kept, c₂, hdispatch, he₂⟩ := exec_bind_eq_ok he₁
  obtain ⟨_, c₃, hdrop, he₃⟩ := exec_bind_eq_ok he₂
  cases he₃
  have ha₁ := ((Flow.keeps_mintHandle (Coordinator.lenient_alike c)).of_ok (.refl c) hmint).1
  have ha₃ :=
    ((Flow.keeps_dropHandle (Coordinator.lenient_alike c₂) handle).of_ok (.refl c₂) hdrop).1
  have hs₁ : B.Serves c₁ := hs.of_alike ha₁
  rw [exec_tryCatch] at hdispatch
  rcases hd : exec (Flow.dispatch (.complete session.plan handle session.reparser) false) c₁ with
    ⟨failure | kept', c₂'⟩ <;> rw [hd] at hdispatch
  · obtain ⟨_, _, _, ⟨⟩⟩ := exec_bind_eq_ok hdispatch
  · cases hdispatch
    obtain ⟨hs₂, hdb₂⟩ := Flow.dispatch_store (h := .complete) nofun hd hs₁
    exact ⟨Serves.of_alike hs₂ ha₃, by rw [ha₃.store, hdb₂, ha₁.store]⟩

theorem regenerate_repeats (hB : B.Sound part) (hs : B.Serves c) (menuLinks : List MenuLink)
    (hg : c.world.store.db.generation = generation) {again : Session ε}
    (he : exec (Flow.regenerate { B.passed with state := { B.passed.state with menuLinks } }) c =
      (.ok again, c')) :
    again = B.passed ∧ B.Serves c' ∧
      c'.world.store.db = ({} : Contents).at (generation + 1) := by
  have hreset : exec (Flow.editStore .reset) c =
    (.ok (), { c with world := { c.world with store := c.world.store.reset.1 } }) := rfl
  rw [Flow.regenerate, exec_bind_of_ok hreset, exec_bind_of_ok (exec_get _)] at he
  obtain ⟨_, c₁, hnote, he₁⟩ := exec_bind_eq_ok he
  obtain ⟨state, c₂, hdispatch, he₂⟩ := exec_bind_eq_ok he₁
  cases he₂
  have ha₁ := ((Flow.keeps_note (Coordinator.lenient_alike _) _ _).of_ok (.refl _) hnote).1
  have hs₁ : B.Serves c₁ := Serves.of_alike (c := { c with world :=
    { c.world with store := c.world.store.reset.1 } }) hs ha₁
  obtain ⟨hs₂, hdb₂⟩ := Flow.dispatch_store (h := .regenerate) nofun hdispatch hs₁
  obtain rfl := Flow.dispatch_regenerate hdispatch hs₁
  refine ⟨?_, hs₂, ?_⟩
  · simp [passed, skipping, hB.unlinked]
  · rw [hdb₂, ha₁.store, ← hg]
    rfl

-- Each step takes a pass as far as the blueprint says, and a pass that is asked for begins with one
-- reset more behind it.
theorem proceed_repeats (hB : B.Sound part) (hs : B.Serves c) {moment next : Moment ε}
    (hm : B.Stands generation moment c)
    (ht : ∀ session candidates, moment = .parse session candidates →
      part c.world.tree = part B.tree)
    (he : exec (Flow.proceed moment) c = (.ok next, c')) :
    ∃ generation', (next.isEnding ∨ B.Serves c' ∧ B.Stands generation' next c') ∧
      generation' + next.underWay = generation + moment.underWay + moment.isStart.toNat := by
  cases moment with
  | start session =>
    obtain ⟨⟨code, found, rfl, hfound⟩, hdb⟩ := hm
    obtain ⟨result, c₁, hbegin, he₁⟩ := exec_bind_eq_ok he
    obtain ⟨rfl, hs₁, hdb₁⟩ := beginPass_repeats hB hs hfound hbegin
    cases he₁
    exact ⟨generation, .inr ⟨hs₁, ⟨code, rfl⟩, rfl, hdb₁.trans hdb⟩, rfl⟩
  | parse session candidates =>
    obtain ⟨⟨code, rfl⟩, rfl, hdb⟩ := hm
    obtain ⟨parsed, c₁, hparse, he₁⟩ := exec_bind_eq_ok he
    obtain ⟨rfl, hs₁, hdb₁⟩ := parse_repeats hB hs code (ht _ _ rfl) hdb hparse
    cases he₁
    exact ⟨generation, .inr ⟨hs₁, rfl, hdb₁⟩, rfl⟩
  | edit session =>
    obtain ⟨rfl, hdb⟩ := hm
    obtain ⟨_, c₁, hedit, he₁⟩ := exec_bind_eq_ok he
    obtain ⟨hs₁, hdb₁⟩ := editRecords_repeats hs hdb hedit
    cases he₁
    exact ⟨generation, .inr ⟨hs₁, rfl, hdb₁⟩, rfl⟩
  | resolve session =>
    obtain ⟨rfl, hdb⟩ := hm
    obtain ⟨_, c₁, hresolve, he₁⟩ := exec_bind_eq_ok he
    obtain ⟨hs₁, hdb₁⟩ := resolve_repeats hB hs hdb hresolve
    cases he₁
    exact ⟨generation, .inr ⟨hs₁, rfl, hdb₁⟩, rfl⟩
  | prepare session =>
    obtain ⟨rfl, hdb⟩ := hm
    obtain ⟨_, c₁, hprepare, he₁⟩ := exec_bind_eq_ok he
    obtain ⟨hs₁, hdb₁⟩ := preparePublishing_repeats hs hprepare
    cases he₁
    exact ⟨generation, .inr ⟨hs₁, rfl, hdb₁.trans hdb⟩, rfl⟩
  | publish session =>
    obtain ⟨rfl, hdb⟩ := hm
    obtain ⟨published, c₁, hpublish, he₁⟩ := exec_bind_eq_ok he
    obtain ⟨hlinks, hs₁, hgeneration⟩ := publish_repeats hB hs hpublish
    cases he₁
    exact ⟨generation, .inr ⟨hs₁, hlinks, by rw [hgeneration, hdb]; rfl⟩, rfl⟩
  | complete session =>
    obtain ⟨hlinks, hgeneration⟩ := hm
    obtain ⟨keepAlive, c₁, hcomplete, he₁⟩ := exec_bind_eq_ok he
    obtain ⟨hs₁, hdb₁⟩ := complete_repeats hs hcomplete
    cases he₁
    exact ⟨generation, .inr ⟨hs₁, hlinks, by rw [hdb₁, hgeneration]⟩, rfl⟩
  | completed session keepAlive =>
    cases keepAlive with
    | true =>
      cases he
      exact ⟨generation, .inr ⟨hs, hm⟩, rfl⟩
    | false =>
      cases he
      exact ⟨generation, .inl rfl, rfl⟩
  | idle session =>
    cases he
    exact ⟨generation, .inr ⟨hs, hm⟩, rfl⟩
  | wait session =>
    obtain ⟨answer, c₁, hwait, he₁⟩ := exec_bind_eq_ok he
    have hwaited : B.Serves c₁ ∧ c₁.world.store.db = c.world.store.db := by
      cases hwait
      exact ⟨hs, rfl⟩
    have hm' : B.Stands generation (.wait session) c₁ := ⟨hm.1, by rw [hwaited.2, hm.2]⟩
    cases answer with
    | signal signal =>
      cases he₁
      exact ⟨generation, .inr ⟨hwaited.1, hm'⟩, by cases signal <;> rfl⟩
    | noHandles =>
      cases he₁
      exact ⟨generation, .inl rfl, rfl⟩
    | pending =>
      cases he₁
      exact ⟨generation, .inr ⟨hwaited.1, hm'⟩, rfl⟩
  | signalled session signal =>
    cases signal with
    | regenerate =>
      obtain ⟨⟨menuLinks, rfl⟩, hgeneration⟩ := hm
      obtain ⟨again, c₁, hagain, he₁⟩ := exec_bind_eq_ok he
      obtain ⟨rfl, hs₁, hdb₁⟩ := regenerate_repeats hB hs menuLinks hgeneration hagain
      cases he₁
      have hunfound : B.passed = { B.skipping B.yield.skipped with found := none } := by
        simp only [passed, skipping, hB.unfound]
      exact ⟨generation + 1, .inr ⟨hs₁, ⟨_, none, hunfound, nofun⟩, hdb₁⟩, rfl⟩
    | shutdown =>
      cases he
      exact ⟨generation, .inl rfl, rfl⟩
  | _ => exact absurd hm id

end Steps

end Blueprint

end DocPipeline
