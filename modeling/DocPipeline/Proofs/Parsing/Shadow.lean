import DocPipeline.Parsing.Assembly
import DocPipeline.Proofs.Lockstep
import DocPipeline.Proofs.Tree.Veil
import DocPipeline.Source.FileRuntime

namespace DocPipeline

-- What a parser is told for one run and for the other.
structure Sources.Agree (sources others : Sources) (file : Candidate) : Prop where
  source : others.parser.file others.tree others.dir file.absolute others.hint =
    sources.parser.file sources.tree sources.dir file.absolute sources.hint
  test : ∀ type, others.parser.test others.tree type others.dir file.absolute =
    sources.parser.test sources.tree type sources.dir file.absolute

namespace Assembly

-- Two assemblies that differ in what they counted and logged at most.
def Alike (a b : Assembly) : Prop := b.store = a.store ∧ b.skipped = a.skipped

abbrev Shadowed {β : Type} (m n : Assembling β) : Prop :=
  Lockstep Alike m n (fun a b => b = a) Alike Alike

variable {sources others : Sources} {policy : OnFailure}

theorem shadowed_modify {f : Assembly → Assembly} (h : ∀ a b, Alike a b → Alike (f a) (f b)) :
    Shadowed (modify f) (modify f) :=
  fun a b hab => .ok rfl (h a b hab)

theorem shadowed_count (change : Metrics → Metrics) : Shadowed (count change) (count change) :=
  shadowed_modify fun _ _ h => h

theorem shadowed_say (level : Level) (message : String) :
    Shadowed (say level message) (say level message) :=
  shadowed_modify fun _ _ h => h

theorem shadowed_keep (records : List Record) (ast : Option Ast) :
    Shadowed (keep records ast) (keep records ast) :=
  shadowed_modify fun _ _ h => ⟨by rw [h.1], h.2⟩

theorem shadowed_settle (label : String) (policy : OnFailure) (result : ParseResult) :
    Shadowed (settle label policy result) (settle label policy result) := by
  cases result with
  | ok parsed => exact lockstep_pure rfl
  | error cause =>
    refine lockstep_bind (shadowed_count _) fun _ _ _ => ?_
    cases policy with
    | propagate => exact lockstep_throw _ fun _ _ h => h
    | skip =>
      refine lockstep_bind (shadowed_say _ _) fun _ _ _ => ?_
      exact lockstep_bind (shadowed_modify fun _ _ h => ⟨h.1, by rw [h.2]⟩) fun _ _ _ =>
        lockstep_pure rfl

theorem shadowed_addFile (key : String) (parsed : Parsed) :
    Shadowed (addFile key parsed) (addFile key parsed) :=
  lockstep_bind (shadowed_count _) fun _ _ _ =>
    lockstep_bind (shadowed_keep _ _) fun _ _ _ => lockstep_pure rfl

-- What was parsed, if anything, is added.
theorem shadowed_addParsed {parse other : Assembling (Option Parsed)} (h : Shadowed parse other)
    (key : String) :
    Shadowed (do match (← parse) with | none => return 0 | some parsed => addFile key parsed)
      (do match (← other) with | none => return 0 | some parsed => addFile key parsed) := by
  refine lockstep_bind h ?_
  rintro _ parsed rfl
  cases parsed with
  | none => exact lockstep_pure rfl
  | some parsed => exact shadowed_addFile _ _

theorem shadowed_addSource {file : Candidate} (h : sources.Agree others file) :
    Shadowed (addSource sources policy file) (addSource others policy file) := by
  refine shadowed_addParsed ?_ file.relative
  unfold parseSource
  rw [h.source]
  exact lockstep_bind (shadowed_say _ _) fun _ _ _ => shadowed_settle _ _ _

theorem shadowed_addTest {file : Candidate} (h : sources.Agree others file) (type : String) :
    Shadowed (addTest sources type policy file) (addTest others type policy file) := by
  refine shadowed_addParsed ?_ (testKey file)
  unfold parseTest
  rw [h.test]
  exact lockstep_bind (shadowed_say _ _) fun _ _ _ => shadowed_settle _ _ _

theorem shadowed_addEach {γ : Type} {add other : γ → Assembling Nat} {items : List γ}
    (h : ∀ item ∈ items, Shadowed (add item) (other item)) :
    Shadowed (addEach add items) (addEach other items) := by
  induction items with
  | nil => exact lockstep_pure rfl
  | cons item rest ih =>
    obtain ⟨hfirst, hrest⟩ := List.forall_mem_cons.mp h
    refine lockstep_bind hfirst ?_
    rintro _ n rfl
    refine lockstep_bind (ih hrest) ?_
    rintro _ m rfl
    exact lockstep_pure rfl

theorem shadowed_addFragment (hdir : others.dir = sources.dir)
    (hparser : others.parser = sources.parser) (fragment : Fragment) :
    Shadowed (addFragment sources policy fragment) (addFragment others policy fragment) := by
  unfold addFragment
  rw [hdir, hparser]
  refine lockstep_bind (shadowed_say _ _) fun _ _ _ => ?_
  refine lockstep_bind (shadowed_settle _ _ _) ?_
  rintro _ parsed rfl
  cases parsed with
  | none => exact lockstep_pure rfl
  | some parsed =>
    exact lockstep_bind (shadowed_count _) fun _ _ _ =>
      lockstep_bind (shadowed_keep _ _) fun _ _ _ => lockstep_pure rfl

end Assembly

-- The runtime that comes with the program looks at nothing of a tree but the file that it parses.
theorem fileRuntime_agree {tree other : Tree} {places : Location → Prop} {file : Candidate}
    (h : tree.SameBut places other)
    (hfree : ∀ location entry, tree.find file.absolute = .ok (location, entry) → ¬ places location)
    (plan : Plan) (package : Package) :
    (Sources.of tree plan fileRuntime package).Agree (Sources.of other plan fileRuntime package)
      file := by
  have hread : readSource other file.absolute = readSource tree file.absolute := by
    rw [readSource, readSource, h.readText hfree]
  refine ⟨?_, fun type => ?_⟩
  · change FileRuntime.parseFile other _ _ _ = FileRuntime.parseFile tree _ _ _
    rw [FileRuntime.parseFile, FileRuntime.parseFile, hread]
    rfl
  · change FileRuntime.parseTest other _ _ _ = FileRuntime.parseTest tree _ _ _
    rw [FileRuntime.parseTest, FileRuntime.parseTest, hread]
    rfl

end DocPipeline
