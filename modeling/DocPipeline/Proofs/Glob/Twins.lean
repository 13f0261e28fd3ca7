import DocPipeline.Proofs.Glob.Below

namespace DocPipeline.Glob

open DocPipeline.Path (ofNames IsStep)
open DocPipeline.Tree (Project Same length_le_entries)

variable {dir base : List String}

-- The same files below both directories, in the same order.
def Twins (dir base : List String) (files others : List Path) : Prop :=
  ∃ below : List (List String), (∀ names ∈ below, ∀ name ∈ names, IsStep name) ∧
    files = below.map (fun names => ofNames (dir ++ names)) ∧
    others = below.map (fun names => ofNames (base ++ names))

namespace Twins

variable {files others more others' : List Path}

theorem nil : Twins dir base [] [] := ⟨[], nofun, rfl, rfl⟩

theorem single {names : List String} (h : ∀ name ∈ names, IsStep name) :
    Twins dir base [ofNames (dir ++ names)] [ofNames (base ++ names)] :=
  ⟨[names], List.forall_mem_singleton.mpr h, rfl, rfl⟩

theorem append (h : Twins dir base files others) (h' : Twins dir base more others') :
    Twins dir base (files ++ more) (others ++ others') := by
  obtain ⟨below, hbelow, rfl, rfl⟩ := h
  obtain ⟨further, hfurther, rfl, rfl⟩ := h'
  exact ⟨below ++ further, List.forall_mem_append.mpr ⟨hbelow, hfurther⟩, by simp, by simp⟩

theorem flatMap {α : Type} {items : List α} {f g : α → List Path}
    (h : ∀ item ∈ items, Twins dir base (f item) (g item)) :
    Twins dir base (items.flatMap f) (items.flatMap g) := by
  induction items with
  | nil => exact nil
  | cons item items ih =>
    obtain ⟨hitem, hitems⟩ := List.forall_mem_cons.mp h
    exact hitem.append (ih hitems)

theorem ite {p q : Prop} [Decidable p] [Decidable q] (hiff : p ↔ q)
    (h : p → Twins dir base files others) (h' : ¬ p → Twins dir base more others') :
    Twins dir base (if p then files else more) (if q then others else others') := by
  by_cases hp : p
  · rw [if_pos hp, if_pos (hiff.mp hp)]
    exact h hp
  · rw [if_neg hp, if_neg (hiff.not.mp hp)]
    exact h' hp

theorem filter (h : Twins dir base files others) {p q : Path → Bool}
    (hpq : ∀ names : List String, (∀ name ∈ names, IsStep name) →
      p (ofNames (dir ++ names)) = q (ofNames (base ++ names))) :
    Twins dir base (files.filter p) (others.filter q) := by
  obtain ⟨below, hbelow, rfl, rfl⟩ := h
  refine ⟨below.filter fun names => p (ofNames (dir ++ names)),
    fun names hnames => hbelow names (List.mem_of_mem_filter hnames), ?_, ?_⟩
  · rw [List.filter_map]
    rfl
  · rw [List.filter_map]
    congr 1
    exact List.filter_congr fun names hnames => (hpq names (hbelow names hnames)).symm

end Twins

-- A segment that stands for names only.
structure Stays (segment : List Token) : Prop where
  literal : ∀ name, literal? segment = some name → IsStep name
  special : literal? segment = none → segment.head? = some (.char '.') →
    ∀ name ∈ ["..", "."], isMatch segment name.toList = false

theorem mem_dropAnyDepth {segment : List Token} {segments : List (List Token)}
    (h : segment ∈ dropAnyDepth segments) : segment ∈ segments := by
  induction segments with
  | nil => cases h
  | cons first rest ih =>
    rw [dropAnyDepth] at h
    split at h
    · exact List.mem_cons_of_mem _ (ih h)
    · exact h

theorem length_dropAnyDepth_le (segments : List (List Token)) :
    (dropAnyDepth segments).length ≤ segments.length := by
  induction segments with
  | nil => exact le_rfl
  | cons first rest ih =>
    rw [dropAnyDepth]
    split
    · exact Nat.le_succ_of_le ih
    · exact le_rfl

theorem lastName_ofNames {names : List String} (hd : ∀ name ∈ dir, IsStep name)
    (hn : ∀ name ∈ names, IsStep name) (hne : names ≠ []) :
    lastName (ofNames (dir ++ names)) = names.getLast hne := by
  rw [lastName, Path.segments_ofNames (List.forall_mem_append.mpr ⟨hd, hn⟩) (by simp [hne]),
    ← List.cons_append, List.getLast?_append, List.getLast?_eq_some_getLast hne]
  rfl

section Match

variable {tree other : Tree} {home place : Location} {limit : Nat}

-- Matching from a location on needs fuel for the levels below it and for the segments that are left.
-- Whoever has more of it than is needed matches the same.
structure TwinRuns (tree other : Tree) (dir base : List String) (home : Location) (limit need : Nat) :
    Prop where
  below : ∀ {fuel fuel' : Nat}, need < fuel → need < fuel' →
    ∀ {names : List String}, (tree.get? (home ++ names)).isSome →
    ∀ {segments : List (List Token)}, (∀ segment ∈ segments, Stays segment) →
    3 * (limit - names.length) + 3 * segments.length ≤ need →
    Twins dir base (matchesBelow tree fuel (ofNames (dir ++ names)) segments)
      (matchesBelow other fuel' (ofNames (base ++ names)) segments)
  entry : ∀ {fuel fuel' : Nat}, need < fuel → need < fuel' →
    ∀ {names : List String}, names ≠ [] → (tree.get? (home ++ names)).isSome →
    ∀ {segments : List (List Token)}, (∀ segment ∈ segments, Stays segment) →
    3 * (limit - names.length) + 3 * segments.length + 2 ≤ need →
    Twins dir base (matchesAt tree fuel (ofNames (dir ++ names)) segments)
      (matchesAt other fuel' (ofNames (base ++ names)) segments)
  named : ∀ {fuel fuel' : Nat}, need < fuel → need < fuel' →
    ∀ {names : List String}, names ≠ [] → (tree.get? (home ++ names)).isSome →
    ∀ (segment : List Token) {rest : List (List Token)}, (∀ segment ∈ rest, Stays segment) →
    3 * (limit - names.length) + 3 * rest.length + 1 ≤ need →
    Twins dir base (matchesName tree fuel (ofNames (dir ++ names)) segment rest)
      (matchesName other fuel' (ofNames (base ++ names)) segment rest)

variable (hp : Project tree dir home) (hp' : Project other base place)
variable (hs : Same tree home other place)
variable (hlimit : ∀ names, (tree.get? (home ++ names)).isSome → names.length ≤ limit)

include hp in
theorem isStep_of_isSome {names : List String} (h : (tree.get? (home ++ names)).isSome) :
    ∀ name ∈ names, IsStep name :=
  fun _ hname => (hp.wellFormed.isName h (List.mem_append_right _ hname)).isStep

include hp hp' hs hlimit in
theorem TwinRuns.below_succ {need : Nat} (h : TwinRuns tree other dir base home limit need)
    {fuel fuel' : Nat} (hf : need < fuel) (hf' : need < fuel') {names : List String}
    (hn : (tree.get? (home ++ names)).isSome) {segments : List (List Token)}
    (hstays : ∀ segment ∈ segments, Stays segment)
    (hneed : 3 * (limit - names.length) + 3 * segments.length ≤ need + 1) :
    Twins dir base (matchesBelow tree (fuel + 1) (ofNames (dir ++ names)) segments)
      (matchesBelow other (fuel' + 1) (ofNames (base ++ names)) segments) := by
  have hsteps := isStep_of_isSome hp hn
  have hdir : ∀ name ∈ dir ++ names, IsStep name := List.forall_mem_append.mpr ⟨hp.steps, hsteps⟩
  have hbase : ∀ name ∈ base ++ names, IsStep name := List.forall_mem_append.mpr ⟨hp'.steps, hsteps⟩
  cases segments with
  | nil => exact .nil
  | cons segment rest =>
    obtain ⟨hsegment, hrest⟩ := List.forall_mem_cons.mp hstays
    rw [List.length_cons] at hneed
    simp only [matchesBelow]
    cases hliteral : literal? segment with
    | some text =>
      have hname := hsegment.literal text hliteral
      have hmore : ∀ name ∈ names ++ [text], IsStep name :=
        List.forall_mem_append.mpr ⟨hsteps, List.forall_mem_singleton.mpr hname⟩
      dsimp only
      rw [Path.join_name hdir hname, Path.join_name hbase hname, List.append_assoc,
        List.append_assoc, hp.exists?_eq hmore (by simp), hp'.exists?_eq hmore (by simp), ← hs]
      refine .ite Iff.rfl (fun hexists => ?_) fun _ => .nil
      refine .ite Iff.rfl (fun _ => .single hmore) fun _ => ?_
      have hdepth := hlimit _ hexists
      rw [List.length_append, List.length_singleton] at hdepth
      refine h.below hf hf' hexists hrest ?_
      rw [List.length_append, List.length_singleton]
      omega
    | none =>
      dsimp only
      rw [hp.isDirectory_eq hsteps, hp'.isDirectory_eq hsteps, ← hs]
      refine .ite Iff.rfl (fun hdirectory => ?_) fun _ => .nil
      have hdirectory := of_decide_eq_true hdirectory
      have hspecial : (if segment.head? = some (.char '.') then
          [".." , "."].filter fun name => isMatch segment name.toList else []) = [] := by
        split
        next hdot =>
          rw [List.filter_eq_nil_iff]
          intro name hname
          simp [hsegment.special hliteral hdot name hname]
        next => rfl
      rw [hspecial, hp.childNames_eq hsteps hdirectory,
        hp'.childNames_eq hsteps ((hs names).symm.trans hdirectory),
        (hs.below names).names_eq hp.distinct hp'.distinct]
      refine .append .nil (.flatMap fun name hname => ?_)
      have hexists : (tree.get? (home ++ (names ++ [name]))).isSome := by
        have hmem := Tree.mem_names.mp hname
        rw [← hs.below names [name], List.append_assoc] at hmem
        exact hmem
      have hmore := isStep_of_isSome hp hexists
      have hname : IsStep name := hmore name (by simp)
      rw [Path.join_name hdir hname, Path.join_name hbase hname, List.append_assoc,
        List.append_assoc]
      have hdepth := hlimit _ hexists
      rw [List.length_append, List.length_singleton] at hdepth
      refine h.entry hf hf' (by simp) hexists hstays ?_
      rw [List.length_append, List.length_singleton, List.length_cons]
      omega

include hp hp' hs in
theorem TwinRuns.entry_succ {need : Nat} (h : TwinRuns tree other dir base home limit need)
    {fuel fuel' : Nat} (hf : need < fuel) (hf' : need < fuel') {names : List String}
    (hne : names ≠ []) (hn : (tree.get? (home ++ names)).isSome) {segments : List (List Token)}
    (hstays : ∀ segment ∈ segments, Stays segment)
    (hneed : 3 * (limit - names.length) + 3 * segments.length + 2 ≤ need + 1) :
    Twins dir base (matchesAt tree (fuel + 1) (ofNames (dir ++ names)) segments)
      (matchesAt other (fuel' + 1) (ofNames (base ++ names)) segments) := by
  have hsteps := isStep_of_isSome hp hn
  cases segments with
  | nil => exact .nil
  | cons segment rest =>
    obtain ⟨hsegment, hrest⟩ := List.forall_mem_cons.mp hstays
    rw [List.length_cons] at hneed
    simp only [matchesAt]
    refine .ite Iff.rfl (fun _ => ?_) fun _ => h.named hf hf' hne hn segment hrest (by omega)
    have hfewer := length_dropAnyDepth_le rest
    have hstill : ∀ segment ∈ dropAnyDepth rest, Stays segment :=
      fun segment hmem => hrest segment (mem_dropAnyDepth hmem)
    have hbelow : Twins dir base
        (matchesBelow tree fuel (ofNames (dir ++ names)) (segment :: dropAnyDepth rest))
        (matchesBelow other fuel' (ofNames (base ++ names)) (segment :: dropAnyDepth rest)) := by
      refine h.below hf hf' hn (List.forall_mem_cons.mpr ⟨hsegment, hstill⟩) ?_
      rw [List.length_cons]
      omega
    have hdirectory : tree.isDirectory (ofNames (dir ++ names)) = true ↔
        other.isDirectory (ofNames (base ++ names)) = true := by
      rw [hp.isDirectory_eq hsteps, hp'.isDirectory_eq hsteps, ← hs]
    cases hdrop : dropAnyDepth rest with
    | nil =>
      rw [hdrop] at hbelow
      have hhere : Twins dir base
          (if tree.isDirectory (ofNames (dir ++ names)) then [ofNames (dir ++ names)] else [])
          (if other.isDirectory (ofNames (base ++ names)) then [ofNames (base ++ names)] else []) :=
        .ite hdirectory (fun _ => .single hsteps) fun _ => .nil
      exact .ite hdirectory (fun _ => hhere.append hbelow) fun _ => hhere
    | cons next others =>
      rw [hdrop] at hbelow hfewer hstill
      rw [List.length_cons] at hfewer
      have hhere := h.named hf hf' hne hn next (List.forall_mem_cons.mp hstill).2 (by omega)
      exact .ite hdirectory (fun _ => hhere.append hbelow) fun _ => hhere

include hp hp' in
theorem TwinRuns.named_succ {need : Nat} (h : TwinRuns tree other dir base home limit need)
    {fuel fuel' : Nat} (hf : need < fuel) (hf' : need < fuel') {names : List String}
    (hne : names ≠ []) (hn : (tree.get? (home ++ names)).isSome) (segment : List Token)
    {rest : List (List Token)} (hrest : ∀ segment ∈ rest, Stays segment)
    (hneed : 3 * (limit - names.length) + 3 * rest.length + 1 ≤ need + 1) :
    Twins dir base (matchesName tree (fuel + 1) (ofNames (dir ++ names)) segment rest)
      (matchesName other (fuel' + 1) (ofNames (base ++ names)) segment rest) := by
  have hsteps := isStep_of_isSome hp hn
  rw [matchesName, matchesName, isNameMatch, isNameMatch, lastName_ofNames hp.steps hsteps hne,
    lastName_ofNames hp'.steps hsteps hne]
  refine .ite Iff.rfl (fun _ => ?_) fun _ => .nil
  exact .ite Iff.rfl (fun _ => .single hsteps) fun _ => h.below hf hf' hn hrest (by omega)

include hp hp' hs hlimit in
-- By induction on the fuel that is needed: every step leaves less to match.
theorem twinRuns (need : Nat) : TwinRuns tree other dir base home limit need := by
  induction need with
  | zero =>
    refine ⟨fun {fuel fuel'} _ _ _ _ segments _ hneed => ?_, fun _ _ _ _ _ _ _ hneed => ?_,
      fun _ _ _ _ _ _ _ _ hneed => ?_⟩
    · obtain rfl : segments = [] := List.eq_nil_of_length_eq_zero (by omega)
      cases fuel <;> cases fuel' <;> simp only [matchesBelow] <;> exact .nil
    · omega
    · omega
  | succ need ih =>
    refine ⟨fun {fuel fuel'} hf hf' => ?_, fun {fuel fuel'} hf hf' => ?_,
      fun {fuel fuel'} hf hf' => ?_⟩
    all_goals
      obtain ⟨fuel, rfl⟩ := Nat.exists_eq_succ_of_ne_zero (Nat.ne_zero_of_lt hf)
      obtain ⟨fuel', rfl⟩ := Nat.exists_eq_succ_of_ne_zero (Nat.ne_zero_of_lt hf')
      have hf := Nat.lt_of_succ_lt_succ hf
      have hf' := Nat.lt_of_succ_lt_succ hf'
    · intro names hn segments hstays hneed
      exact ih.below_succ hp hp' hs hlimit hf hf' hn hstays hneed
    · intro names hne hn segments hstays hneed
      exact ih.entry_succ hp hp' hs hf hf' hne hn hstays hneed
    · intro names hne hn segment rest hrest hneed
      exact ih.named_succ hp hp' hf hf' hne hn segment hrest hneed

end Match

section Expand

variable {tree other : Tree} {home place : Location}

-- A pattern below both directories matches the same in both.
theorem twins_expand (hp : Project tree dir home) (hp' : Project other base place)
    (hs : Same tree home other place) {segments : List (List Token)}
    (hstays : ∀ segment ∈ segments, Stays segment) (hne : segments ≠ []) :
    Twins dir base (Glob.expand tree ⟨literals dir ++ segments⟩)
      (Glob.expand other ⟨literals base ++ segments⟩) := by
  have hlength : ∀ names, (literals names ++ segments).length = names.length + segments.length :=
    fun names => by simp [literals]
  have hexpand : ∀ {tree : Tree} {dir : List String} {home : Location}, Project tree dir home →
      ∃ fuel, 3 * tree.entries.length + 3 * segments.length < fuel ∧
        Glob.expand tree ⟨literals dir ++ segments⟩ =
          matchesBelow tree fuel (ofNames dir) segments := by
    intro tree dir home hp
    refine ⟨depthBound tree + 2 * dir.length + 3 * segments.length, ?_, ?_⟩
    · rw [depthBound, depthBound.maxLinks, Tree.maxLinks]
      omega
    · have hroot : (⟨"/"⟩ : Path) = ofNames [] := rfl
      rw [Glob.expand, hlength, ← matchesBelow_literals hp hne (List.nil_append dir).symm, hroot]
      congr 1
      omega
  obtain ⟨fuel, hfuel, hmatches⟩ := hexpand hp
  obtain ⟨fuel', hfuel', hmatches'⟩ := hexpand hp'
  have hhome := hp.isDirectory_home
  have hlimit : ∀ names, (tree.get? (home ++ names)).isSome →
      names.length ≤ min tree.entries.length other.entries.length := by
    intro names hn
    have hleft := length_le_entries hp.wellFormed hn
    rw [hs] at hn
    have hright := length_le_entries hp'.wellFormed hn
    rw [List.length_append] at hleft hright
    omega
  have hruns := twinRuns hp hp' hs hlimit
    (3 * min tree.entries.length other.entries.length + 3 * segments.length)
  have hsome : (tree.get? (home ++ [])).isSome := by
    rw [List.append_nil, hhome]
    rfl
  have hbelow := hruns.below (by omega : _ < fuel) (by omega : _ < fuel') hsome hstays (by simp)
  rwa [List.append_nil, List.append_nil, ← hmatches, ← hmatches'] at hbelow

end Expand

end DocPipeline.Glob
