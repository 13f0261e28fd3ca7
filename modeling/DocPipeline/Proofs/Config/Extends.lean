import DocPipeline.Proofs.Config.Read
import DocPipeline.Proofs.Effect
import Mathlib.Data.List.Perm.Subperm

namespace DocPipeline.Config

-- What the walk through a configuration comes to.
inductive Visit where
  -- There is no configuration to go through.
  | problem (failure : Failure)
  -- An entry that is not a text, which names no configuration.
  | mistyped
  | config (parents : List Visit) (own : Json)

namespace Visit

def typeFailure : Failure := .invalidConfig "'extends' entries must be strings"

def isMistyped : Visit → Bool
  | mistyped => true
  | _ => false

mutual

-- All that the walk meets depth first, the entries of each list from left to right.
def met : Visit → List Failure
  | problem failure => [failure]
  | mistyped => [typeFailure]
  | config parents _ => metAll parents

def metAll : List Visit → List Failure
  | [] => []
  | visit :: rest => visit.met ++ metAll rest

end

mutual

-- What the walk meets if it looks at a whole list before it goes on to the first parent in it.
def problems : Visit → List Failure
  | problem failure => [failure]
  | mistyped => [typeFailure]
  | config parents _ => if parents.any isMistyped then [typeFailure] else problemsAll parents

def problemsAll : List Visit → List Failure
  | [] => []
  | visit :: rest => visit.problems ++ problemsAll rest

end

mutual

-- The parents merged in order, starting from an empty object, and the own keys last.
def merged : Visit → Json
  | config parents own => Json.merge (mergedOver (.object []) parents) own
  | _ => .object []

def mergedOver : Json → List Visit → Json
  | base, [] => base
  | base, visit :: rest => mergedOver (Json.merge base visit.merged) rest

end

def outcome (visit : Visit) : Except Failure Json :=
  match visit.problems with
  | [] => .ok visit.merged
  | failure :: _ => .error failure

end Visit

-- The entries of a list of parents. One text is a list of itself.
def listed? : Json → Option (List Json)
  | .string name => some [.string name]
  | .array items => some items
  | _ => none

mutual

-- The walk through a value that was reached through the files of a chain. A file of the chain is
-- not entered again; one that was entered elsewhere is.
inductive Walk (tree : Tree) (dir : Path) : List Path → Json → Visit → Prop where
  | notObject {chain value} (h : ∀ entries, value ≠ .object entries) :
    Walk tree dir chain value (.problem (.invalidConfig "extended config must be an object"))
  | alone {chain entries} (h : Json.lookup "extends" entries = none) :
    Walk tree dir chain (.object entries) (.config [] (.object entries))
  | notListed {chain entries named} (h : Json.lookup "extends" entries = some named)
    (hl : listed? named = none) :
    Walk tree dir chain (.object entries)
      (.problem (.invalidConfig "'extends' must be a string or an array"))
  | extending {chain entries named items visits}
    (h : Json.lookup "extends" entries = some named) (hl : listed? named = some items)
    (hw : Walks tree dir chain items visits) :
    Walk tree dir chain (.object entries)
      (.config visits (.object (Json.erase "extends" entries)))

-- The walk through the entries of a list of parents.
inductive Walks (tree : Tree) (dir : Path) : List Path → List Json → List Visit → Prop where
  | nil {chain} : Walks tree dir chain [] []
  | mistyped {chain item items visits} (h : item.asString? = none)
    (hrest : Walks tree dir chain items visits) :
    Walks tree dir chain (item :: items) (.mistyped :: visits)
  | cycle {chain name items visits} (h : Path.absolutize dir ⟨name⟩ ∈ chain)
    (hrest : Walks tree dir chain items visits) :
    Walks tree dir chain (.string name :: items)
      (.problem (cycleFailure (Path.absolutize dir ⟨name⟩)) :: visits)
  | unreadable {chain name failure items visits} (h : Path.absolutize dir ⟨name⟩ ∉ chain)
    (hr : readFile tree (Path.absolutize dir ⟨name⟩) = .error failure)
    (hrest : Walks tree dir chain items visits) :
    Walks tree dir chain (.string name :: items)
      (.problem (failure.note ("Failed to load extended config: " ++ name)) :: visits)
  | parent {chain name parent visit items visits} (h : Path.absolutize dir ⟨name⟩ ∉ chain)
    (hr : readFile tree (Path.absolutize dir ⟨name⟩) = .ok parent)
    (hw : Walk tree dir (Path.absolutize dir ⟨name⟩ :: chain) parent visit)
    (hrest : Walks tree dir chain items visits) :
    Walks tree dir chain (.string name :: items) (visit :: visits)

end

variable {tree : Tree} {dir : Path}

section Unique

mutual

-- There is one walk at most.
theorem Walk.unique {chain : List Path} {value : Json} {visit other : Visit} :
    Walk tree dir chain value visit → Walk tree dir chain value other → other = visit
  | .notObject h, h' => by
    cases h' with
    | notObject => rfl
    | _ => exact absurd rfl (h _)
  | .alone h, h' => by
    cases h' with
    | notObject hn => exact absurd rfl (hn _)
    | alone => rfl
    | notListed hs | extending hs => rw [h] at hs; cases hs
  | .notListed h hl, h' => by
    cases h' with
    | notObject hn => exact absurd rfl (hn _)
    | alone hs => rw [h] at hs; cases hs
    | notListed => rfl
    | extending hs hl' =>
      obtain rfl := Option.some.inj (h.symm.trans hs)
      rw [hl] at hl'
      cases hl'
  | .extending h hl hw, h' => by
    cases h' with
    | notObject hn => exact absurd rfl (hn _)
    | alone hs => rw [h] at hs; cases hs
    | notListed hs hl' =>
      obtain rfl := Option.some.inj (h.symm.trans hs)
      rw [hl] at hl'
      cases hl'
    | extending hs hl' hw' =>
      obtain rfl := Option.some.inj (h.symm.trans hs)
      obtain rfl := Option.some.inj (hl.symm.trans hl')
      rw [Walks.unique hw hw']

theorem Walks.unique {chain : List Path} {items : List Json} {visits others : List Visit} :
    Walks tree dir chain items visits → Walks tree dir chain items others → others = visits
  | .nil, h' => by cases h'; rfl
  | .mistyped h hrest, h' => by
    cases h' with
    | mistyped _ hrest' => rw [Walks.unique hrest hrest']
    | _ => cases h
  | .cycle h hrest, h' => by
    cases h' with
    | mistyped hm => cases hm
    | cycle _ hrest' => rw [Walks.unique hrest hrest']
    | unreadable hn | parent hn => exact absurd h hn
  | .unreadable h hr hrest, h' => by
    cases h' with
    | mistyped hm => cases hm
    | cycle hc => exact absurd hc h
    | unreadable _ hr' hrest' =>
      rw [hr] at hr'
      cases hr'
      rw [Walks.unique hrest hrest']
    | parent _ hr' => rw [hr] at hr'; cases hr'
  | .parent h hr hw hrest, h' => by
    cases h' with
    | mistyped hm => cases hm
    | cycle hc => exact absurd hc h
    | unreadable _ hr' => rw [hr] at hr'; cases hr'
    | parent _ hr' hw' hrest' =>
      rw [hr] at hr'
      cases hr'
      rw [Walk.unique hw hw', Walks.unique hrest hrest']

end

end Unique

section Room

variable {paths chain : List Path} {depth : Nat} {path : Path}

-- The chain holds some of the paths, each once, and there is depth for all the others.
structure Room (paths : List Path) (depth : Nat) (chain : List Path) : Prop where
  nodup : chain.Nodup
  within : chain ⊆ paths
  enough : paths.length ≤ depth + chain.length

-- A path that is not on the chain yet leaves room for the rest.
theorem Room.longer (h : Room paths depth chain) (hp : path ∈ paths) (hn : path ∉ chain) :
    ∃ less, depth = less + 1 ∧ Room paths less (path :: chain) := by
  have hnodup : (path :: chain).Nodup := List.nodup_cons.mpr ⟨hn, h.nodup⟩
  have hwithin : path :: chain ⊆ paths := List.cons_subset.mpr ⟨hp, h.within⟩
  have hlength : (path :: chain).length ≤ paths.length := (hnodup.subperm hwithin).length_le
  have henough := h.enough
  rw [List.length_cons] at hlength
  refine ⟨depth - 1, by omega, hnodup, hwithin, ?_⟩
  rw [List.length_cons]
  omega

end Room

section Names

variable {entries : List (String × Json)} {named : Json} {items : List Json}

theorem mentions_of_lookup (h : Json.lookup "extends" entries = some named)
    (hl : listed? named = some items) :
    mentions (.object entries) = items.filterMap Json.asString? := by
  have hget : (Json.object entries).get? "extends" = some named := h
  cases named with
  | string name => cases hl; simp [mentions, hget, Json.asString?]
  | array items => cases hl; simp [mentions, hget]
  | _ => cases hl

theorem parentNames_of_not_listed (hl : listed? named = none) :
    parentNames named = .error (.invalidConfig "'extends' must be a string or an array") := by
  cases named with
  | string name => cases hl
  | array items => cases hl
  | _ => rfl

theorem mapM_parentName_strings (names : List String) :
    (names.map Json.string).mapM parentName = .ok names := by
  induction names with
  | nil => rfl
  | cons name rest ih => rw [List.map_cons, List.mapM_cons, ih]; rfl

theorem mapM_parentName_mistyped (h : ∃ item ∈ items, item.asString? = none) :
    items.mapM parentName = .error Visit.typeFailure := by
  induction items with
  | nil => simp at h
  | cons item rest ih =>
    rw [List.mapM_cons]
    cases hs : item.asString? with
    | none => cases item <;> first | rfl | cases hs
    | some name =>
      have hrest : ∃ item ∈ rest, item.asString? = none := by simpa [hs] using h
      rw [ih hrest]
      cases item with
      | string name => rfl
      | _ => cases hs

theorem parentNames_of_mistyped (hl : listed? named = some items)
    (h : ∃ item ∈ items, item.asString? = none) :
    parentNames named = .error Visit.typeFailure := by
  cases named with
  | string name => cases hl; simp [Json.asString?] at h
  | array items => cases hl; exact mapM_parentName_mistyped h
  | _ => cases hl

theorem parentNames_of_strings {names : List String}
    (hl : listed? named = some (names.map .string)) : parentNames named = .ok names := by
  cases named with
  | string name =>
    cases names with
    | nil => cases hl
    | cons first rest =>
      cases rest with
      | nil => cases hl; rfl
      | cons => cases hl
  | array items =>
    obtain rfl := Option.some.inj hl
    exact mapM_parentName_strings names
  | _ => cases hl

theorem exists_names (h : ¬∃ item ∈ items, item.asString? = none) :
    ∃ names : List String, items = names.map .string := by
  induction items with
  | nil => exact ⟨[], rfl⟩
  | cons item rest ih =>
    obtain ⟨hitem, hrest⟩ : item.asString? ≠ none ∧ ¬∃ item ∈ rest, item.asString? = none := by
      simpa using h
    obtain ⟨names, rfl⟩ := ih hrest
    cases item with
    | string name => exact ⟨name :: names, rfl⟩
    | _ => exact absurd rfl hitem

end Names

section Ends

variable {chain paths : List Path}

-- Through the entries of a list the walk ends if it ends in every parent that it enters.
theorem exists_walks (items : List Json)
    (hparent : ∀ name, .string name ∈ items → Path.absolutize dir ⟨name⟩ ∉ chain →
      ∀ parent, readFile tree (Path.absolutize dir ⟨name⟩) = .ok parent →
        ∃ visit, Walk tree dir (Path.absolutize dir ⟨name⟩ :: chain) parent visit) :
    ∃ visits, Walks tree dir chain items visits := by
  induction items with
  | nil => exact ⟨[], .nil⟩
  | cons item items ih =>
    obtain ⟨visits, hvisits⟩ := ih fun name hname => hparent name (List.mem_cons_of_mem _ hname)
    cases item with
    | string name =>
      by_cases hc : Path.absolutize dir ⟨name⟩ ∈ chain
      · exact ⟨_, .cycle hc hvisits⟩
      · cases hr : readFile tree (Path.absolutize dir ⟨name⟩) with
        | error failure => exact ⟨_, .unreadable hc hr hvisits⟩
        | ok parent =>
          obtain ⟨visit, hvisit⟩ := hparent name List.mem_cons_self hc parent hr
          exact ⟨_, .parent hc hr hvisit hvisits⟩
    | _ => exact ⟨_, .mistyped rfl hvisits⟩

-- The paths that the value may lead to, and those that the files may lead to.
structure Spans (tree : Tree) (dir : Path) (paths : List Path) (value : Json) : Prop where
  value : ∀ name ∈ mentions value, Path.absolutize dir ⟨name⟩ ∈ paths
  files : ∀ name ∈ treeMentions tree, Path.absolutize dir ⟨name⟩ ∈ paths

theorem Spans.of_readFile {value parent : Json} {path : Path} (h : Spans tree dir paths value)
    (hr : readFile tree path = .ok parent) : Spans tree dir paths parent :=
  ⟨fun name hname => h.files name (mentions_of_readFile hr hname), h.files⟩

theorem Spans.of_listed {entries : List (String × Json)} {named : Json} {items : List Json}
    (h : Spans tree dir paths (.object entries)) (hs : Json.lookup "extends" entries = some named)
    (hl : listed? named = some items) {name : String} (hname : .string name ∈ items) :
    Path.absolutize dir ⟨name⟩ ∈ paths := by
  apply h.value name
  rw [mentions_of_lookup hs hl]
  exact List.mem_filterMap.mpr ⟨_, hname, rfl⟩

-- All paths that a chain may come to hold.
def named (tree : Tree) (dir : Path) (value : Json) : List Path :=
  (mentions value ++ treeMentions tree).map fun name => Path.absolutize dir ⟨name⟩

theorem spans_named (tree : Tree) (dir : Path) (value : Json) :
    Spans tree dir (named tree dir value) value :=
  ⟨fun _ h => List.mem_map_of_mem (List.mem_append_left _ h),
    fun _ h => List.mem_map_of_mem (List.mem_append_right _ h)⟩

theorem room_named (tree : Tree) (dir : Path) (value : Json) :
    Room (named tree dir value) ((mentions value).length + (treeMentions tree).length) [] :=
  ⟨List.nodup_nil, List.nil_subset _, by simp [named]⟩

-- There are only so many paths that a chain can hold.
theorem exists_walk {depth : Nat} {value : Json} (h : Room paths depth chain)
    (hs : Spans tree dir paths value) : ∃ visit, Walk tree dir chain value visit := by
  induction depth using Nat.strong_induction_on generalizing chain value with
  | _ depth ih =>
    cases value with
    | object entries =>
      cases hnamed : Json.lookup "extends" entries with
      | none => exact ⟨_, .alone hnamed⟩
      | some named =>
        cases hl : listed? named with
        | none => exact ⟨_, .notListed hnamed hl⟩
        | some items =>
          have hparent : ∀ name, .string name ∈ items → Path.absolutize dir ⟨name⟩ ∉ chain →
              ∀ parent, readFile tree (Path.absolutize dir ⟨name⟩) = .ok parent →
                ∃ visit, Walk tree dir (Path.absolutize dir ⟨name⟩ :: chain) parent visit := by
            intro name hname hc parent hr
            obtain ⟨less, rfl, hless⟩ := h.longer (hs.of_listed hnamed hl hname) hc
            exact ih less less.lt_succ_self hless (hs.of_readFile hr)
          obtain ⟨visits, hvisits⟩ := exists_walks items hparent
          exact ⟨_, .extending hnamed hl hvisits⟩
    | _ => exact ⟨_, .notObject nofun⟩

end Ends

section Expansion

variable {chain paths : List Path} {expandParent : List Path → Json → Act Json}

theorem exec_ofExcept {α : Type} (result : Except Failure α) (log : Log) :
    exec (Act.ofExcept result) log = (result, log) := rfl

theorem exec_mapFailure {α : Type} (f : Failure → Failure) (act : Act α) (log : Log) :
    exec (act.mapFailure f) log = ((exec act log).1.mapError f, (exec act log).2) := by
  rcases hr : exec act log with ⟨failure | value, written⟩ <;>
    have hrun : StateT.run act log = _ := hr <;>
    simp only [exec, Act.mapFailure, ExceptT.run, ExceptT.mk, StateT.run_bind, hrun] <;> rfl

theorem exec_load (tree : Tree) (path : Path) (log : Log) :
    (exec (load tree path) log).1 = readFile tree path := by
  rw [load, exec_bind, exec_ofExcept]
  cases readFile tree path <;> rfl

-- One parent is expanded and merged over what there is.
def mergeParent (tree : Tree) (dir : Path) (chain : List Path)
    (expandParent : List Path → Json → Act Json) (merged : Json) (name : String) : Act Json := do
  let path := Path.absolutize dir ⟨name⟩
  if path ∈ chain then throw (cycleFailure path)
  let parent ← (load tree path).mapFailure (·.note ("Failed to load extended config: " ++ name))
  return Json.merge merged (← expandParent (path :: chain) parent)

theorem mergeParents_eq (names : List String) :
    mergeParents tree dir chain expandParent names =
      names.foldlM (mergeParent tree dir chain expandParent) (.object []) := rfl

theorem exec_mergeParent_cycle {name : String} (h : Path.absolutize dir ⟨name⟩ ∈ chain)
    (merged : Json) (log : Log) :
    (exec (mergeParent tree dir chain expandParent merged name) log).1 =
      .error (cycleFailure (Path.absolutize dir ⟨name⟩)) := by
  simp only [mergeParent, if_pos h]
  rfl

theorem exec_mergeParent_unreadable {name : String} {failure : Failure}
    (h : Path.absolutize dir ⟨name⟩ ∉ chain)
    (hr : readFile tree (Path.absolutize dir ⟨name⟩) = .error failure) (merged : Json)
    (log : Log) :
    (exec (mergeParent tree dir chain expandParent merged name) log).1 =
      .error (failure.note ("Failed to load extended config: " ++ name)) := by
  simp only [mergeParent, if_neg h]
  rw [exec_bind_fst, exec_mapFailure, exec_load, hr]
  rfl

theorem exec_mergeParent {name : String} {parent : Json} {outcome : Except Failure Json}
    (h : Path.absolutize dir ⟨name⟩ ∉ chain)
    (hr : readFile tree (Path.absolutize dir ⟨name⟩) = .ok parent)
    (he : ∀ log, (exec (expandParent (Path.absolutize dir ⟨name⟩ :: chain) parent) log).1 =
      outcome) (merged : Json) (log : Log) :
    (exec (mergeParent tree dir chain expandParent merged name) log).1 =
      outcome.map (Json.merge merged) := by
  simp only [mergeParent, if_neg h]
  rw [exec_bind_fst, exec_mapFailure, exec_load, hr]
  simp only [Except.mapError]
  rw [exec_bind_fst, he]
  cases outcome <;> rfl

-- What a list of walks comes to when their parents are merged over a base.
def outcomeOver (base : Json) (visits : List Visit) : Except Failure Json :=
  match Visit.problemsAll visits with
  | [] => .ok (Visit.mergedOver base visits)
  | failure :: _ => .error failure

theorem outcomeOver_problem (base : Json) (failure : Failure) (visits : List Visit) :
    outcomeOver base (.problem failure :: visits) = .error failure := rfl

theorem outcomeOver_cons (base : Json) (visit : Visit) (visits : List Visit) :
    outcomeOver base (visit :: visits) = match visit.outcome with
      | .ok merged => outcomeOver (Json.merge base merged) visits
      | .error failure => .error failure := by
  unfold outcomeOver Visit.outcome
  rw [Visit.problemsAll]
  cases visit.problems <;> rfl

-- The parents of a list are expanded and merged as the walk goes through it.
theorem exec_mergeParents {names : List String} {visits : List Visit}
    (hw : Walks tree dir chain (names.map .string) visits)
    (hparent : ∀ name ∈ names, ∀ parent visit, Path.absolutize dir ⟨name⟩ ∉ chain →
      readFile tree (Path.absolutize dir ⟨name⟩) = .ok parent →
      Walk tree dir (Path.absolutize dir ⟨name⟩ :: chain) parent visit → ∀ log,
        (exec (expandParent (Path.absolutize dir ⟨name⟩ :: chain) parent) log).1 = visit.outcome)
    (base : Json) (log : Log) :
    (exec (names.foldlM (mergeParent tree dir chain expandParent) base) log).1 =
      outcomeOver base visits := by
  induction names generalizing visits base log with
  | nil =>
    cases hw
    rfl
  | cons name rest ih =>
    have hrest := fun {visits} hrest => @ih visits hrest fun name hname =>
      hparent name (List.mem_cons_of_mem _ hname)
    rw [List.foldlM_cons, exec_bind_fst]
    cases hw with
    | mistyped h => cases h
    | cycle h =>
      rw [exec_mergeParent_cycle h, outcomeOver_problem]
    | unreadable h hr =>
      rw [exec_mergeParent_unreadable h hr, outcomeOver_problem]
    | @parent _ _ parent visit _ visits h hr hw hwalks =>
      rw [exec_mergeParent h hr (hparent name List.mem_cons_self parent visit h hr hw),
        outcomeOver_cons]
      cases visit.outcome with
      | error failure => rfl
      | ok merged => exact hrest hwalks _ _

theorem Walk.not_mistyped {value : Json} {visit : Visit} (h : Walk tree dir chain value visit) :
    visit.isMistyped = false := by
  cases h <;> rfl

theorem Walks.any_mistyped {items : List Json} {visits : List Visit}
    (h : Walks tree dir chain items visits) :
    visits.any Visit.isMistyped = true ↔ ∃ item ∈ items, item.asString? = none := by
  induction items generalizing visits with
  | nil => cases h; simp
  | cons item items ih =>
    cases h with
    | mistyped hm hrest => simp [Visit.isMistyped, hm]
    | cycle _ hrest => simp [Visit.isMistyped, Json.asString?, ih hrest]
    | unreadable _ _ hrest => simp [Visit.isMistyped, Json.asString?, ih hrest]
    | parent _ _ hw hrest => simp [hw.not_mistyped, Json.asString?, ih hrest]

theorem exec_expandWith {value : Json} {visit : Visit} (hw : Walk tree dir chain value visit)
    (hc : value.IsCanonical)
    (hparent : ∀ name ∈ mentions value, ∀ parent visit, Path.absolutize dir ⟨name⟩ ∉ chain →
      readFile tree (Path.absolutize dir ⟨name⟩) = .ok parent →
      Walk tree dir (Path.absolutize dir ⟨name⟩ :: chain) parent visit → ∀ log,
        (exec (expandParent (Path.absolutize dir ⟨name⟩ :: chain) parent) log).1 = visit.outcome)
    (log : Log) :
    (exec (expandWith tree dir expandParent chain value) log).1 = visit.outcome := by
  cases hw with
  | notObject h =>
    cases value with
    | object entries => exact absurd rfl (h entries)
    | _ => rfl
  | @alone _ entries h =>
    cases hc with
    | object hincreasing _ =>
      simp only [expandWith, h]
      change Except.ok (Json.object entries) = .ok (.object (Json.mergeEntries [] entries))
      rw [Json.mergeEntries_nil_left hincreasing]
  | notListed h hl =>
    simp only [expandWith, h, parentNames_of_not_listed hl]
    rfl
  | @extending _ entries named items visits h hl hwalks =>
    simp only [expandWith, h]
    rw [exec_bind_fst, exec_ofExcept]
    by_cases hmistyped : ∃ item ∈ items, item.asString? = none
    · rw [parentNames_of_mistyped hl hmistyped, Visit.outcome, Visit.problems,
        if_pos (hwalks.any_mistyped.mpr hmistyped)]
    · obtain ⟨names, rfl⟩ := exists_names hmistyped
      have hnames : mentions (.object entries) = names := by
        rw [mentions_of_lookup h hl]
        simp [List.filterMap_map, Json.asString?, Function.comp_def]
      rw [hnames] at hparent
      rw [parentNames_of_strings hl, Visit.outcome, Visit.problems,
        if_neg fun hany => hmistyped (hwalks.any_mistyped.mp hany)]
      dsimp only
      rw [exec_bind_fst, mergeParents_eq, exec_mergeParents hwalks hparent, outcomeOver]
      cases Visit.problemsAll visits <;> rfl

-- As long as there is room, the expansion gives what the walk comes to.
theorem exec_expandFrom {depth : Nat} {value : Json} {visit : Visit} (h : Room paths depth chain)
    (hs : Spans tree dir paths value) (hc : value.IsCanonical)
    (hw : Walk tree dir chain value visit) (log : Log) :
    (exec (expandFrom tree dir depth chain value) log).1 = visit.outcome := by
  induction depth generalizing chain value visit log with
  | zero =>
    refine exec_expandWith hw hc ?_ log
    intro name hname parent visit hn _ _
    obtain ⟨less, hless, _⟩ := h.longer (hs.value name hname) hn
    cases hless
  | succ depth ih =>
    refine exec_expandWith hw hc ?_ log
    intro name hname parent visit hn hr hparent log
    obtain ⟨less, hless, hroom⟩ := h.longer (hs.value name hname) hn
    obtain rfl := Nat.succ.inj hless
    exact ih hroom (hs.of_readFile hr) (isCanonical_of_readFile hr) hparent log

-- The depth that is allowed for is the number of the names that were counted.
theorem exec_expand {value : Json} {visit : Visit} (hc : value.IsCanonical)
    (hw : Walk tree dir [] value visit) (log : Log) :
    (exec (expand tree dir value) log).1 = visit.outcome := by
  unfold expand
  cases hm : mentions value with
  | nil =>
    refine exec_expandWith hw hc ?_ log
    rw [hm]
    exact nofun
  | cons first rest =>
    have hroom := room_named tree dir value
    rw [hm] at hroom
    exact exec_expandFrom hroom (spans_named tree dir value) hc hw log

end Expansion

-- An object that extends nothing.
structure Plain (value : Json) : Prop where
  canonical : value.IsCanonical
  keys : ∃ entries, value = .object entries ∧ Json.lookup "extends" entries = none

section Plain

variable {chain : List Path}

theorem Plain.merge {base overlay : Json} (hb : Plain base) (ho : Plain overlay) :
    Plain (Json.merge base overlay) := by
  refine ⟨hb.canonical.merge ho.canonical, ?_⟩
  obtain ⟨entries, rfl, hentries⟩ := hb.keys
  obtain ⟨more, rfl, hmore⟩ := ho.keys
  exact ⟨_, rfl, Json.lookup_mergeEntries_eq_none hentries hmore⟩

theorem plain_empty : Plain (.object []) := ⟨.object List.Pairwise.nil nofun, [], rfl, rfl⟩

theorem plain_erase {entries : List (String × Json)} (h : (Json.object entries).IsCanonical) :
    Plain (.object (Json.erase "extends" entries)) := by
  cases h with
  | object hincreasing hvalues =>
    refine ⟨.object (hincreasing.erase _) fun entry hentry => ?_, _, rfl, ?_⟩
    · exact hvalues entry (List.mem_filter.mp hentry).1
    · rw [Json.lookup_erase, if_neg (not_not.mpr rfl)]

mutual

theorem Walk.plain {chain : List Path} {value : Json} {visit : Visit} :
    Walk tree dir chain value visit → value.IsCanonical → visit.problems = [] →
      Plain visit.merged
  | .notObject _, _, hp => nomatch hp
  | .notListed _ _, _, hp => nomatch hp
  | .alone h, hc, _ => plain_empty.merge ⟨hc, _, rfl, h⟩
  | .extending _ _ hw, hc, hp => by
    rw [Visit.problems] at hp
    split at hp
    · cases hp
    · exact (Walks.plain hw hp plain_empty).merge (plain_erase hc)

theorem Walks.plain {chain : List Path} {items : List Json} {visits : List Visit} {base : Json} :
    Walks tree dir chain items visits → Visit.problemsAll visits = [] → Plain base →
      Plain (Visit.mergedOver base visits)
  | .nil, _, hb => hb
  | .mistyped _ _, hp, _ => nomatch hp
  | .cycle _ _, hp, _ => nomatch hp
  | .unreadable _ _ _, hp, _ => nomatch hp
  | .parent _ hr hw hrest, hp, hb => by
    obtain ⟨hfirst, hothers⟩ := List.append_eq_nil_iff.mp hp
    have hparent := Walk.plain hw (isCanonical_of_readFile hr) hfirst
    rw [Visit.mergedOver]
    exact Walks.plain hrest hothers (hb.merge hparent)

end

end Plain

-- For every configuration and every tree of files, whatever extends what: the walk ends, and the
-- expansion gives what it comes to. Where the walk meets no problem, these are the parents with the
-- configuration's own keys merged over them, and nothing is extended any more. Otherwise it is the
-- first problem.
theorem expand_of_walk (tree : Tree) (dir : Path) {entries : List (String × Json)}
    (hc : (Json.object entries).IsCanonical) :
    ∃ visit, (∀ other, Walk tree dir [] (.object entries) other ↔ other = visit) ∧
      (visit.problems = [] → visit.merged.get? "extends" = none ∧
        ∀ log, (exec (expand tree dir (.object entries)) log).1 = .ok visit.merged) ∧
      ∀ failure rest, visit.problems = failure :: rest →
        ∀ log, (exec (expand tree dir (.object entries)) log).1 = .error failure := by
  obtain ⟨visit, hw⟩ := exists_walk (room_named tree dir (.object entries))
    (spans_named tree dir (.object entries))
  refine ⟨visit, fun other => ⟨hw.unique, fun h => h ▸ hw⟩, fun hp => ⟨?_, fun log => ?_⟩, ?_⟩
  · obtain ⟨merged, hmerged, hnone⟩ := (hw.plain hc hp).keys
    rw [hmerged]
    exact hnone
  · rw [exec_expand hc hw log, Visit.outcome, hp]
  · intro failure rest hp log
    rw [exec_expand hc hw log, Visit.outcome, hp]

-- Two parents that extend one file.
def diamond : Tree :=
  ⟨[(["p"], .directory), (["p", "a.json"], .file "\x7b\"extends\": \"c.json\"\x7d".toUTF8),
    (["p", "b.json"], .file "\x7b\"extends\": \"c.json\"\x7d".toUTF8),
    (["p", "c.json"], .file "\x7b\"title\": \"c\"\x7d".toUTF8)]⟩

def diamondConfig : Json := .object [("extends", .strings ["a.json", "b.json"])]

theorem diamond_expands : diamondConfig.IsCanonical ∧
    ∃ visit, Walk diamond ⟨"/p"⟩ [] diamondConfig visit ∧ visit.problems = [] ∧
      ∀ log, (exec (expand diamond ⟨"/p"⟩ diamondConfig) log).1 = .ok visit.merged := by
  have hcanonical : diamondConfig.IsCanonical := by
    refine .object (List.pairwise_singleton _ _) fun entry hentry => ?_
    rw [List.mem_singleton.mp hentry]
    exact .array (by simp [Json.IsCanonical.string])
  have hok : (exec (expand diamond ⟨"/p"⟩ diamondConfig) ⟨none, []⟩).1.isOk = true := by
    decide +kernel
  obtain ⟨visit, hw, hnone, hsome⟩ := expand_of_walk diamond ⟨"/p"⟩ hcanonical
  cases hp : visit.problems with
  | nil => exact ⟨hcanonical, visit, (hw visit).mpr rfl, hp, (hnone hp).2⟩
  | cons failure rest =>
    have herror := hsome failure rest hp ⟨none, []⟩
    change (exec (expand diamond ⟨"/p"⟩ diamondConfig) ⟨none, []⟩).1 = _ at herror
    rw [herror] at hok
    cases hok

-- All entries of a list are looked at before the first parent is read, so it is not the first
-- problem from left to right that is told here.
theorem mistyped_told_before_missing :
    ∃ visit failure rest, Walk .empty ⟨"/p"⟩ []
        (.object [("extends", .array [.string "missing.json", .nat 5])]) visit ∧
      visit.met = failure :: rest ∧
      ∀ log, (exec (expand .empty ⟨"/p"⟩
        (.object [("extends", .array [.string "missing.json", .nat 5])])) log).1 ≠
          .error failure := by
  have hmissing : readFile .empty (Path.absolutize ⟨"/p"⟩ ⟨"missing.json"⟩) = .error
      ((Failure.text "No such file or directory (os error 2)").note
        "Failed to read config: /p/missing.json") := rfl
  refine ⟨_, _, _, .extending rfl rfl (.unreadable nofun hmissing (.mistyped rfl .nil)), rfl, ?_⟩
  intro log h
  cases h

end DocPipeline.Config
