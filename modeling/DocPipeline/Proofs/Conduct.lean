import DocPipeline.Conduct
import DocPipeline.Proofs.Parsing.Assembly

namespace DocPipeline

section View

-- What is read off the counters, and no failure to parse changes.
variable {ν : Type} {view : Metrics → ν} (hv : ∀ m, view m.addFailure = view m)

namespace Assembly

private theorem keeps_say (level : Level) (message : String) (n : ν) :
    Keeps (fun a : Assembly => view a.metrics = n) (say level message) fun _ => True := by
  apply keeps_modify
  intro a ha
  exact ha

include hv

theorem keeps_settle (label : String) (policy : OnFailure) (result : ParseResult) (n : ν) :
    Keeps (fun a : Assembly => view a.metrics = n) (settle label policy result)
      fun _ => True := by
  cases result with
  | ok parsed => exact keeps_pure trivial
  | error cause =>
    apply keeps_bind (keeps_modify fun a ha => (hv a.metrics).trans ha)
    intro _ _
    cases policy with
    | propagate => exact keeps_throw _
    | skip =>
      apply keeps_bind (keeps_say _ _ n)
      intro _ _
      exact keeps_bind (keeps_modify fun a ha => ha) fun _ _ => keeps_pure trivial

theorem keeps_parseSource (sources : Sources) (policy : OnFailure) (file : Candidate) (n : ν) :
    Keeps (fun a : Assembly => view a.metrics = n) (parseSource sources policy file)
      fun _ => True :=
  keeps_bind (keeps_say _ _ n) fun _ _ => keeps_settle hv _ _ _ n

end Assembly

include hv

theorem Reparser.keeps_parse (reparser : Reparser) (tree : Tree) (path : Path) (n : ν) :
    Keeps (fun a : Assembly => view a.metrics = n) (reparser.parse tree path) fun _ => True := by
  apply keeps_bind (Assembly.keeps_parseSource hv _ _ _ n)
  intro parsed _
  cases parsed <;> exact keeps_pure trivial

theorem World.reparse_view {ε : Type} (world : World ε) (reparser : Reparser) (path : Path) :
    view (world.reparse reparser path).2.metrics = view world.metrics :=
  (Reparser.keeps_parse hv reparser world.tree path (view world.metrics)
    ⟨world.store, world.metrics, world.log, []⟩ rfl).1

end View

theorem World.send_metrics {ε : Type} (world : World ε) (handle : Handle) (signal : Signal) :
    (world.send handle signal).2.metrics = world.metrics := by
  unfold send
  cases world.signals.send? handle signal <;> rfl

namespace Conduct

variable {ε π α : Type}

-- The one counter that a collaborator reaches is that of failures to parse.
theorem run_view {ν : Type} {view : Metrics → ν} (hv : ∀ m, view m.addFailure = view m)
    (conduct : Conduct ε π α) (payload : π) (world : World ε) :
    view (conduct.run payload world).world.metrics = view world.metrics := by
  induction conduct generalizing payload world with
  | done value => rfl
  | fail failure => rfl
  | look next ih => exact ih _ _ _ _
  | remember host next ih => exact ih _ _
  | edit payload next ih => exact ih _ _
  | readTree next ih => exact ih _ _ _
  | setTree tree next ih => exact ih _ _
  | readStore next ih => exact ih _ _ _
  | editStore edit next ih => exact ih _ _
  | send handle signal next ih =>
    rw [run, ih, World.send_metrics]
  | accepts handle next ih => exact ih _ _ _
  | copy handle next ih => exact ih _ _ _
  | drop handle next ih => exact ih _ _
  | reparse reparser path next ih =>
    rw [run, ih, World.reparse_view hv]
  | note event next ih => exact ih _ _

-- Passes and hooks are counted by the run alone.
theorem run_course (conduct : Conduct ε π α) (payload : π) (world : World ε) :
    (conduct.run payload world).world.metrics.course = world.metrics.course :=
  conduct.run_view (fun _ => rfl) payload world

-- What the conduct does to the database, whether it fails or not.
def Changes (R : Database → Database → Prop) (conduct : Conduct ε π α) : Prop :=
  ∀ payload world, R world.store.db (conduct.run payload world).world.store.db

-- What a factory does to the database, and what it makes.
def Makes (R : Database → Database → Prop) (good : α → Prop) (conduct : Conduct ε Unit α) :
    Prop :=
  conduct.Changes R ∧ ∀ world a, (conduct.run () world).result = .ok a → good a

theorem run_noteAll (events : List Event) (next : Conduct ε π α) (payload : π) (world : World ε) :
    ∃ log, (noteAll events next).run payload world = next.run payload { world with log } := by
  induction events generalizing world with
  | nil => exact ⟨world.log, rfl⟩
  | cons event events ih => exact ih (world.note event)

theorem run_ofAct (act : Act α) (payload : π) (world : World ε) :
    ∃ log, (ofAct act).run payload world =
      ⟨(exec act ⟨some .trace, []⟩).1, payload, { world with log }⟩ := by
  simp only [ofAct, exec]
  rcases act.run.run ⟨some .trace, []⟩ with ⟨result, written⟩
  obtain ⟨log, hr⟩ := run_noteAll written.events (ofExcept result) payload world
  refine ⟨log, ?_⟩
  rw [hr]
  cases result <;> rfl

theorem ofAct_changes {R : Database → Database → Prop} (hR : ∀ db, R db db) (act : Act α) :
    (ofAct act : Conduct ε π α).Changes R := by
  intro payload world
  obtain ⟨log, hr⟩ := run_ofAct act payload world
  rw [hr]
  exact hR _

end Conduct

end DocPipeline
