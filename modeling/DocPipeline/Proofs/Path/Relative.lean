import DocPipeline.Proofs.Path.Normal

namespace DocPipeline.Path

variable {base path : Path} {common names below : List String} {above : List Part}

-- The steps that are left of a directory and the names that are left of a file do not begin alike.
def Apart (above : List Part) (below : List String) : Prop :=
  ∀ name, above.head? = some (.name name) → below.head? ≠ some name

theorem apart_nil_left (below : List String) : Apart [] below := fun _ h => nomatch h

theorem apart_nil_right (above : List Part) : Apart above [] := fun _ _ h => nomatch h

theorem exists_common (steps : List Part) (names : List String) :
    ∃ common above below, steps = common.map .name ++ above ∧ names = common ++ below ∧
      Apart above below := by
  induction steps generalizing names with
  | nil => exact ⟨[], [], names, rfl, rfl, apart_nil_left names⟩
  | cons step steps ih =>
    cases names with
    | nil => exact ⟨[], step :: steps, [], rfl, rfl, apart_nil_right _⟩
    | cons name names =>
      by_cases hstep : step = .name name
      · obtain ⟨common, above, below, rfl, rfl, hapart⟩ := ih names
        exact ⟨name :: common, above, below, by rw [hstep]; rfl, rfl, hapart⟩
      · refine ⟨[], step :: steps, name :: names, rfl, rfl, fun other habove hbelow => hstep ?_⟩
        cases habove
        cases hbelow
        rfl

theorem dropCommon_of_apart (h : Apart above below) (common : List String) :
    dropCommon (common.map .name ++ above) ((common ++ below).map .name) =
      (above, below.map .name) := by
  induction common with
  | nil =>
    cases above with
    | nil => rfl
    | cons step above =>
      cases below with
      | nil => rfl
      | cons name below =>
        have hne : step ≠ .name name := fun he => h name (congrArg some he) rfl
        exact if_neg hne
  | cons name common ih =>
    rw [List.map_cons, List.cons_append, List.cons_append, List.map_cons, dropCommon, if_pos rfl, ih]

theorem relativeTo_of_common (hb : base.isAbsolute = true)
    (hs : base.steps = common.map .name ++ above) (h : ∀ name ∈ common ++ below, IsStep name)
    (ha : Apart above below) :
    relativeTo base (ofNames (common ++ below)) = (climb above.length below).text := by
  rw [relativeTo, parts_of_isAbsolute hb, parts_ofNames h, dropCommon, if_pos rfl, hs,
    dropCommon_of_apart ha]
  simp only [map_text_name, List.map_const', climb]

theorem relativeTo_ofNames {dir names : List String} (hd : ∀ name ∈ dir, IsStep name)
    (h : ∀ name ∈ names, IsStep name) :
    relativeTo (ofNames dir) (ofNames (dir ++ names)) = "/".intercalate names :=
  relativeTo_of_common (isAbsolute_ofNames dir) (by rw [steps_ofNames hd, List.append_nil])
    (List.forall_mem_append.mpr ⟨hd, h⟩) (apart_nil_left names)

section Parting

variable {away : List String} {ups : Nat}

theorem name_injective : Function.Injective Part.name := fun _ _ h => Part.name.inj h

-- Two normal paths from the root part after the names that they have in common.
theorem exists_parting (hb : base.isAbsolute = true) (hbn : base.normalize = base)
    (hp : path.isAbsolute = true) (hpn : path.normalize = path) :
    ∃ common away below, base = ofNames (common ++ away) ∧ path = ofNames (common ++ below) ∧
      (∀ name ∈ common ++ away, IsStep name) ∧ (∀ name ∈ common ++ below, IsStep name) ∧
      Apart (away.map .name) below := by
  obtain ⟨dir, hdir, rfl⟩ := exists_ofNames hb hbn
  obtain ⟨names, hnames, rfl⟩ := exists_ofNames hp hpn
  obtain ⟨common, above, below, hsteps, rfl, hapart⟩ := exists_common (dir.map .name) names
  obtain ⟨front, away, rfl, hfront, rfl⟩ := List.map_eq_append_iff.mp hsteps
  obtain rfl : front = common := name_injective.list_map hfront
  exact ⟨front, away, below, rfl, rfl, hdir, hnames, hapart⟩

theorem foldl_step_back (away : List String) (kept : List Part) :
    (List.replicate away.length Part.up).foldl step (away.map .name ++ kept) = kept := by
  induction away with
  | nil => rfl
  | cons last away ih => exact ih

-- Leading up once for each name that is left of the directory takes all of them back.
theorem absolutize_climb (hd : ∀ name ∈ common ++ away, IsStep name)
    (h : ∀ name ∈ below, IsStep name) :
    absolutize (ofNames (common ++ away)) (climb away.length below) =
      ofNames (common ++ below) := by
  have hr : (climb away.length below).isAbsolute = false := isAbsolute_climb h
  have hbase : ((common ++ away).map Part.name).reverse ++ [.root] =
      away.reverse.map .name ++ ((common.map .name).reverse ++ [.root]) := by simp
  rw [absolutize_eq]
  apply normalize_of_steps ((isAbsolute_join hr).trans (isAbsolute_ofNames _))
  rw [steps_join hr, steps_ofNames hd, steps_climb h, climbParts, List.foldl_append,
    foldl_step_names, List.foldl_append, hbase, ← List.length_reverse, foldl_step_back,
    foldl_step_names]
  simp

theorem head?_segments_climb (h : ∀ name ∈ below, IsStep name) :
    (climb ups below).segments.head? = some ".." ↔ ups ≠ 0 := by
  cases ups with
  | zero =>
    cases below with
    | nil => decide
    | cons name below =>
      rw [segments_climb h (by simp)]
      simpa using (h name List.mem_cons_self).ne_up
  | succ ups =>
    rw [segments_climb h (by simp)]
    simp [List.replicate_succ]

theorem isWithin_ofNames {dir names : List String} (hd : ∀ name ∈ dir, IsStep name)
    (h : ∀ name ∈ names, IsStep name) :
    (ofNames names).isWithin (ofNames dir) = true ↔ dir <+: names := by
  rw [isWithin, parts_ofNames hd, parts_ofNames h, List.isPrefixOf_iff_prefix,
    List.cons_prefix_cons, List.prefix_map_iff]
  constructor
  · rintro ⟨-, front, hfront, heq⟩
    rwa [name_injective.list_map heq]
  · exact fun hprefix => ⟨rfl, dir, hprefix, rfl⟩

theorem Apart.prefix_iff (h : Apart (away.map .name) below) : away <+: below ↔ away = [] := by
  refine ⟨fun hprefix => ?_, fun he => he ▸ List.nil_prefix⟩
  cases away with
  | nil => rfl
  | cons name away =>
    obtain ⟨rest, rfl⟩ := hprefix
    exact absurd rfl (h name rfl)

theorem absolutize_relativeTo (hb : base.isAbsolute = true) (hbn : base.normalize = base)
    (hp : path.isAbsolute = true) (hpn : path.normalize = path) :
    absolutize base ⟨relativeTo base path⟩ = path := by
  obtain ⟨common, away, below, rfl, rfl, hd, h, hapart⟩ := exists_parting hb hbn hp hpn
  have hrelative := relativeTo_of_common hb (by rw [steps_ofNames hd, List.map_append]) h hapart
  rw [hrelative, List.length_map]
  exact absolutize_climb hd (List.forall_mem_append.mp h).2

end Parting

-- The path from a directory to a file leads to the file, so that no two files share it. It begins by
-- leading up just where the file is not at or below the directory, and else it is what is left of
-- the file's parts.
theorem relativeTo_identifies (hb : base.isAbsolute = true) (hbn : base.normalize = base)
    (hp : path.isAbsolute = true) (hpn : path.normalize = path) :
    absolutize base ⟨relativeTo base path⟩ = path ∧
      (∀ other : Path, other.isAbsolute = true → other.normalize = other →
        relativeTo base other = relativeTo base path → other = path) ∧
      ((mk (relativeTo base path)).segments.head? = some ".." ↔ path.isWithin base = false) ∧
      (path.isWithin base = true → ∃ rest, path.parts = base.parts ++ rest ∧
        relativeTo base path = "/".intercalate (rest.map Part.text)) := by
  refine ⟨absolutize_relativeTo hb hbn hp hpn, fun other ho hon heq => ?_, ?_⟩
  · rw [← absolutize_relativeTo hb hbn ho hon, heq, absolutize_relativeTo hb hbn hp hpn]
  obtain ⟨common, away, below, rfl, rfl, hd, h, hapart⟩ := exists_parting hb hbn hp hpn
  have hrelative := relativeTo_of_common hb (by rw [steps_ofNames hd, List.map_append]) h hapart
  have hwithin : (ofNames (common ++ below)).isWithin (ofNames (common ++ away)) = true ↔
      away = [] := by
    rw [isWithin_ofNames hd h, List.prefix_append_right_inj, hapart.prefix_iff]
  have hbelow := (List.forall_mem_append.mp h).2
  rw [hrelative, List.length_map]
  constructor
  · rw [← Bool.not_eq_true, hwithin]
    exact (head?_segments_climb hbelow).trans (by rw [ne_eq, List.length_eq_zero_iff])
  · intro hw
    obtain rfl := hwithin.mp hw
    refine ⟨below.map .name, ?_, ?_⟩
    · rw [parts_ofNames h, parts_ofNames hd, List.append_nil, List.map_append]
      rfl
    · rw [map_text_name, climb]
      rfl

theorem sibling_identified :
    relativeTo ⟨"/work/project"⟩ ⟨"/work/projects/b.js"⟩ = "../projects/b.js" ∧
      absolutize ⟨"/work/project"⟩ ⟨relativeTo ⟨"/work/project"⟩ ⟨"/work/projects/b.js"⟩⟩ =
        ⟨"/work/projects/b.js"⟩ ∧
      (mk (relativeTo ⟨"/work/project"⟩ ⟨"/work/projects/b.js"⟩)).segments.head? = some ".." ∧
      (mk "/work/projects/b.js").isWithin ⟨"/work/project"⟩ = false := by
  have h := @relativeTo_identifies ⟨"/work/project"⟩ ⟨"/work/projects/b.js"⟩ (by decide)
    (by decide) (by decide) (by decide)
  have hout : (mk "/work/projects/b.js").isWithin ⟨"/work/project"⟩ = false := by decide
  exact ⟨by decide, h.1, h.2.2.1.mpr hout, hout⟩

end DocPipeline.Path
