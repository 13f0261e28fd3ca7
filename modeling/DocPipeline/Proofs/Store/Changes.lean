import DocPipeline.Store

namespace DocPipeline

-- What a receiver of changes can know of a store.
structure Summary where
  records : Nat
  keys : Nat
  generation : Nat
deriving DecidableEq

def Summary.replay (summary : Summary) : Change → Summary
  | .recordsAppended _ total => { summary with records := total }
  | .recordsReplaced total => { summary with records := total }
  | .indexUpdated keys => { summary with keys }
  | .reset generation => ⟨0, 0, generation⟩

def Database.summary (db : Database) : Summary := ⟨db.records.length, db.index.size, db.generation⟩

namespace Change

variable {before after : Database}

theorem between_reset (h : before.generation ≠ after.generation) :
    between before after = [reset after.generation] := by
  rw [between, if_pos h]

-- A change of the generation hides the others, so it must leave nothing else to tell.
theorem replay_between (h : before.generation ≠ after.generation →
      after.records = [] ∧ after.index.size = 0) :
    (between before after).foldl Summary.replay before.summary = after.summary := by
  by_cases hg : before.generation = after.generation
  · simp only [between, hg, ne_eq, not_true, if_false, List.foldl_append, Database.summary]
    -- The index is told of after the records, and leaves their number as it is.
    have hrecords : ∀ keys, (if before.records.length < after.records.length then
          [recordsAppended (after.records.length - before.records.length) after.records.length]
        else if after.records.length < before.records.length then
          [recordsReplaced after.records.length]
        else []).foldl Summary.replay ⟨before.records.length, keys, after.generation⟩ =
        ⟨after.records.length, keys, after.generation⟩ := by
      intro keys
      split
      · rfl
      · split
        · rfl
        · rw [List.foldl_nil, show before.records.length = after.records.length by omega]
    rw [hrecords]
    by_cases hk : before.index.size = after.index.size <;> simp [hk, Summary.replay]
  · obtain ⟨hrecords, hindex⟩ := h hg
    simp [between_reset hg, Database.summary, Summary.replay, hrecords, hindex]

-- What is said to be added is what the records grew by.
theorem added_of_mem_between {added total : Nat}
    (h : recordsAppended added total ∈ between before after) :
    before.records.length + added = after.records.length ∧ total = after.records.length := by
  unfold between at h
  split at h
  · simp at h
  · rcases List.mem_append.mp h with h | h
    · split at h
      · simp only [List.mem_singleton, recordsAppended.injEq] at h
        omega
      · split at h <;> simp at h
    · split at h <;> simp at h

theorem length_between_le (before after : Database) : (between before after).length ≤ 2 := by
  unfold between
  split
  · simp
  · dsimp only
    rw [List.length_append]
    have hrecords : ∀ (p q : Prop) [Decidable p] [Decidable q] (x y : Change),
        (if p then [x] else if q then [y] else []).length ≤ 1 := by
      intro p q _ _ x y
      split
      · simp
      · split <;> simp
    have hkeys : ∀ (p : Prop) [Decidable p] (x : Change), (if p then [x] else []).length ≤ 1 := by
      intro p _ x
      split <;> simp
    exact Nat.add_le_add (hrecords ..) (hkeys ..)

end Change

-- Uses of a store after which its changes tell its summary.
inductive StoreUse where
  | append (records : List Record) (ast : Option Ast)
  | reset
  | replace (records : List Record)
  -- The records are taken out, and others are put in their place with nothing in between.
  | exchange (change : List Record → List Record)
  | resolve
  | enter (entries : List (String × List Nat))

-- Puts keys into the index.
def Database.enterAll (db : Database) (entries : List (String × List Nat)) : Database :=
  let put (index : Dict (List Nat)) (entry : String × List Nat) := index.insert entry.1 entry.2
  { db with index := entries.foldl put db.index }

namespace Store

def use (store : Store) : StoreUse → Store × List Change
  | .append records ast => store.append records ast
  | .reset => store.reset
  | .replace records => store.replace records
  | .exchange change => store.take.1.replace (change store.take.2)
  | .resolve => store.resolve
  | .enter entries => store.update (·.enterAll entries)

-- From one store to a later one, with the changes that were told between.
structure Leads (store : Store) (told : List Change) (after : Store) : Prop where
  summary : told.foldl Summary.replay store.db.summary = after.db.summary
  changes : after.changes = store.changes ++ told

variable {store between after : Store} {told more : List Change}

theorem Leads.refl (store : Store) : store.Leads [] store := ⟨rfl, (List.append_nil _).symm⟩

theorem Leads.trans (h : store.Leads told between) (h' : between.Leads more after) :
    store.Leads (told ++ more) after where
  summary := by rw [List.foldl_append, h.summary, h'.summary]
  changes := by rw [h'.changes, h.changes, List.append_assoc]

theorem leads_update (f : Database → Database)
    (h : store.db.generation ≠ (f store.db).generation →
      (f store.db).records = [] ∧ (f store.db).index.size = 0) :
    store.Leads (store.update f).2 (store.update f).1 :=
  ⟨Change.replay_between h, rfl⟩

theorem leads_replace (store : Store) (records : List Record) :
    store.Leads (store.replace records).2 (store.replace records).1 := ⟨rfl, rfl⟩

theorem leads_use (store : Store) (use : StoreUse) :
    store.Leads (store.use use).2 (store.use use).1 := by
  cases use with
  | append records ast => exact leads_update _ fun hg => absurd rfl hg
  | reset => exact leads_update _ fun _ => ⟨rfl, rfl⟩
  | replace records => exact leads_replace store records
  | exchange change =>
    -- Taking the records out tells nothing, but what is told then does not depend on it.
    exact ⟨rfl, rfl⟩
  | resolve => exact leads_update _ fun hg => absurd rfl hg
  | enter entries => exact leads_update _ fun hg => absurd rfl hg

theorem use_reset (store : Store) :
    (store.use .reset).2 = [.reset (store.db.generation + 1)] :=
  Change.between_reset (Nat.succ_ne_self _).symm

theorem added_of_use {use : StoreUse} {added total : Nat}
    (h : .recordsAppended added total ∈ (store.use use).2) :
    store.db.records.length + added = (store.use use).1.db.records.length ∧
      total = (store.use use).1.db.records.length := by
  cases use with
  | replace records => simp [Store.use, Store.replace] at h
  | exchange change => simp [Store.use, Store.replace] at h
  | _ => exact Change.added_of_mem_between h

theorem length_use_le (store : Store) (use : StoreUse) : (store.use use).2.length ≤ 2 := by
  cases use with
  | replace records => exact Nat.le_succ 1
  | exchange change => exact Nat.le_succ 1
  | _ => exact Change.length_between_le _ _

-- A receiver that has seen everything before is given what was told since, if the buffer holds it.
theorem Leads.receive (h : store.Leads told after) (hn : told.length ≤ bufferSize) :
    (after.receive store.subscribe).2 = told.map .change := by
  have hwaiting : after.changes.drop store.changes.length = told := by
    rw [h.changes, List.drop_left]
  simp [Store.receive, subscribe, hwaiting, Nat.sub_eq_zero_of_le hn]

end Store

-- Stores, and the handles that lead to them, each by the place of its store.
structure Stores where
  stores : List Store := []
  handles : List Nat := []

namespace Stores

inductive Step where
  | create
  | copy (handle : Nat)
  | use (handle : Nat) (use : StoreUse)

-- A copy of a handle leads to the same store.
def step (all : Stores) : Step → Stores
  | .create => ⟨all.stores ++ [{}], all.handles ++ [all.stores.length]⟩
  | .copy handle => { all with handles := all.handles ++ all.handles[handle]?.toList }
  | .use handle use =>
    match all.handles[handle]? with
    | none => all
    | some place => { all with stores := all.stores.modify place fun store => (store.use use).1 }

def run (all : Stores) (steps : List Step) : Stores := steps.foldl step all

-- What a step tells of the store at a place.
def toldOnce (all : Stores) (place : Nat) : Step → List Change
  | .use handle use =>
    if all.handles[handle]? = some place then
      (all.stores[place]?.map fun store => (store.use use).2).getD []
    else []
  | _ => []

def told (all : Stores) (place : Nat) : List Step → List Change
  | [] => []
  | first :: rest => all.toldOnce place first ++ (all.step first).told place rest

variable {all : Stores} {place : Nat} {store : Store}

theorem told_append (steps rest : List Step) :
    all.told place (steps ++ rest) = all.told place steps ++ (all.run steps).told place rest := by
  induction steps generalizing all with
  | nil => rfl
  | cons first steps ih =>
    rw [List.cons_append, told, ih, told, List.append_assoc]
    rfl

-- A store is changed by uses through its own handles alone.
theorem leads_step (h : all.stores[place]? = some store) (next : Step) :
    ∃ after, (all.step next).stores[place]? = some after ∧
      store.Leads (all.toldOnce place next) after := by
  cases next with
  | create =>
    have hplace := (List.getElem?_eq_some_iff.mp h).1
    exact ⟨store, (List.getElem?_append_left hplace).trans h, .refl _⟩
  | copy handle => exact ⟨store, h, .refl _⟩
  | use handle use =>
    simp only [step, toldOnce]
    cases hlead : all.handles[handle]? with
    | none => exact ⟨store, h, by simpa using .refl _⟩
    | some other =>
      dsimp only
      rw [List.getElem?_modify, h]
      by_cases hplace : other = place
      · refine ⟨(store.use use).1, by simp [hplace], ?_⟩
        simpa [hplace] using store.leads_use use
      · exact ⟨store, by simp [hplace], by simpa [hplace] using .refl _⟩

theorem leads_run (h : all.stores[place]? = some store) (steps : List Step) :
    ∃ after, (all.run steps).stores[place]? = some after ∧
      store.Leads (all.told place steps) after := by
  induction steps generalizing all store with
  | nil => exact ⟨store, h, .refl _⟩
  | cons first steps ih =>
    obtain ⟨between, hbetween, hfirst⟩ := leads_step h first
    obtain ⟨after, hafter, hrest⟩ := ih hbetween
    exact ⟨after, hafter, hfirst.trans hrest⟩

-- Whatever is done through whichever handles, replaying what is told of a store gives its summary.
-- Each use returns what receivers are given for it, says by how much the records grew, and if it is
-- a reset, tells nothing but the next generation.
theorem summary_replayed (h : all.stores[place]? = some store) (steps : List Step) :
    ∃ after, (all.run steps).stores[place]? = some after ∧
      (all.told place steps).foldl Summary.replay store.db.summary = after.db.summary ∧
      ((all.told place steps).length ≤ Store.bufferSize →
        (after.receive store.subscribe).2 = (all.told place steps).map .change) ∧
      ∀ handle use, (all.run steps).handles[handle]? = some place →
        let next := (after.use use).1
        let returned := (after.use use).2
        ((all.run steps).step (.use handle use)).stores[place]? = some next ∧
        all.told place (steps ++ [.use handle use]) = all.told place steps ++ returned ∧
        (next.receive after.subscribe).2 = returned.map .change ∧
        (∀ added total, .recordsAppended added total ∈ returned →
          after.db.records.length + added = next.db.records.length ∧
            total = next.db.records.length) ∧
        (use = .reset → returned = [.reset (after.db.generation + 1)]) := by
  obtain ⟨after, hafter, hleads⟩ := leads_run h steps
  refine ⟨after, hafter, hleads.summary, hleads.receive, fun handle use hlead => ?_⟩
  have hnext : ((all.run steps).step (.use handle use)).stores[place]? =
      some (after.use use).1 := by
    simp [step, hlead, hafter]
  have htold : (all.run steps).told place [.use handle use] = (after.use use).2 := by
    simp [told, toldOnce, hlead, hafter]
  refine ⟨hnext, by rw [told_append, htold], ?_, fun added total => Store.added_of_use, ?_⟩
  · exact (after.leads_use use).receive (Nat.le_trans (after.length_use_le use) (by decide))
  · rintro rfl
    exact after.use_reset

-- Two stores, the first of which has two handles.
def pair : Stores := run {} [.create, .create, .copy 0]

def record (name : String) : Record := { kind := .entity "class", fields := ⟨[("name", .string name)]⟩ }

-- The first store is used through both of its handles, and in between the other one is.
def pairSteps : List Step :=
  [.use 0 (.append [record "A", record "B"] none), .use 2 .resolve, .use 1 (.append [record "C"] none),
   .use 2 .reset, .use 0 (.append [record "A"] none), .use 0 (.exchange fun records =>
     records ++ records), .use 2 (.enter [("A", [0]), ("more", [1])])]

theorem pair_replayed :
    pair.told 0 pairSteps = [.recordsAppended 2 2, .indexUpdated 2, .reset 1, .recordsAppended 1 1,
      .recordsReplaced 2, .indexUpdated 2] ∧
    ∃ after, (pair.run pairSteps).stores[0]? = some after ∧ after.db.summary = ⟨2, 2, 1⟩ ∧
      (after.use .reset).2 = [.reset 2] := by
  have htold : pair.told 0 pairSteps = [.recordsAppended 2 2, .indexUpdated 2, .reset 1,
    .recordsAppended 1 1, .recordsReplaced 2, .indexUpdated 2] := by decide
  have hstore : pair.stores[0]? = some ⟨{}, []⟩ := rfl
  obtain ⟨after, hafter, hsummary, -, hnext⟩ := summary_replayed hstore pairSteps
  rw [htold] at hsummary
  have hreset := (hnext 2 .reset rfl).2.2.2.2 rfl
  have hgeneration : after.db.generation = 1 := (congrArg Summary.generation hsummary).symm
  exact ⟨htold, after, hafter, hsummary.symm, by rw [hreset, hgeneration]⟩

end Stores

end DocPipeline
