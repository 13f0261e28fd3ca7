import DocPipeline.Proofs.Path.Names

namespace DocPipeline.Path

variable {path : Path} {parts : List Part} {part : Part}

section Kept

-- A part that takes the last kept one back takes back what that one did to the base.
theorem foldl_step_step (kept base : List Part) (part : Part) :
    (step kept part).reverse.foldl step base = step (kept.reverse.foldl step base) part := by
  simp only [List.foldl_reverse]
  cases part with
  | root => rw [step_root, List.foldr_cons]
  | here => rw [step_here, step_here]
  | name value => rw [step_name, List.foldr_cons]
  | up =>
    rcases kept with _ | ⟨_ | _ | _ | last, kept⟩
    · rfl
    · simp only [step, List.foldr_cons]
    · rfl
    · rfl
    · simp only [step, List.foldr_cons]

-- What is kept of parts leads, from any base, where the parts lead.
theorem foldl_step_kept (parts base : List Part) :
    (parts.foldl step []).reverse.foldl step base = parts.foldl step base := by
  induction parts using List.reverseRecOn with
  | nil => rfl
  | append_singleton parts part ih =>
    simp only [List.foldl_append, List.foldl_cons, List.foldl_nil, foldl_step_step, ih]

-- Of steps, names are kept, on top of each `..` that had no name to take back. Those that were there
-- before stay at the bottom.
theorem exists_foldl_step (lead : Nat) (h : ∀ part ∈ parts, part ≠ .root ∧ part ≠ .here) :
    ∃ (names : List String) (ups : Nat), lead ≤ ups ∧
      parts.foldl step (List.replicate lead .up) =
        names.map Part.name ++ List.replicate ups .up := by
  induction parts using List.reverseRecOn with
  | nil => exact ⟨[], lead, Nat.le_refl _, rfl⟩
  | append_singleton parts part ih =>
    obtain ⟨hparts, hpart⟩ := List.forall_mem_append.mp h
    obtain ⟨hroot, hhere⟩ := hpart part List.mem_cons_self
    obtain ⟨names, ups, hle, hkept⟩ := ih hparts
    rw [List.foldl_append, List.foldl_cons, List.foldl_nil, hkept]
    cases part with
    | root => exact absurd rfl hroot
    | here => exact absurd rfl hhere
    | name value => exact ⟨value :: names, ups, hle, step_name _ _⟩
    | up =>
      cases names with
      | nil => exact ⟨[], ups + 1, Nat.le_succ_of_le hle, by cases ups <;> rfl⟩
      | cons last names => exact ⟨names, ups, hle, rfl⟩

end Kept

-- Where a path begins, and the steps that it takes from there.
def track (path : Path) : List Part := (if path.isAbsolute then [.root] else []) ++ path.steps

-- What reading a path keeps, the innermost part first.
def kept (path : Path) : List Part := path.track.foldl step []

theorem normalize_eq_ofParts (path : Path) : path.normalize = ofParts path.kept.reverse :=
  normalize_eq path

theorem track_of_isAbsolute (h : path.isAbsolute = true) : path.track = .root :: path.steps := by
  rw [track, h, if_pos rfl, List.singleton_append]

theorem track_of_relative (h : path.isAbsolute = false) : path.track = path.steps := by
  rw [track, h, if_neg Bool.false_ne_true, List.nil_append]

theorem isSegment_of_mem_steps (h : part ∈ path.steps) : part.IsSegment := by
  cases part with
  | root => exact absurd rfl (mem_steps_ne h).1
  | here => exact absurd rfl (mem_steps_ne h).2
  | up => exact Part.isSegment_up
  | name value => exact (isStep_of_mem_steps h).isSegment

theorem mem_steps_of_mem_kept (h : path.isAbsolute = false) (hp : part ∈ path.kept) :
    part ∈ path.steps := by
  rw [kept, track_of_relative h] at hp
  exact (mem_of_mem_foldl_step hp).resolve_right List.not_mem_nil

theorem isSegment_of_mem_kept (h : path.isAbsolute = false) :
    ∀ part ∈ path.kept.reverse, part.IsSegment :=
  fun _ hpart => isSegment_of_mem_steps (mem_steps_of_mem_kept h (List.mem_reverse.mp hpart))

-- The normal form of a relative path is the text of what is kept of its steps.
theorem normalize_of_relative (h : path.isAbsolute = false) :
    path.normalize = mk ("/".intercalate (path.kept.reverse.map Part.text)) := by
  rw [normalize_eq_ofParts]
  cases hk : path.kept.reverse with
  | nil => rfl
  | cons first rest =>
    cases first with
    | root =>
      have hroot : .root ∈ path.kept := List.mem_reverse.mp (hk ▸ List.mem_cons_self)
      exact absurd rfl (mem_steps_ne (mem_steps_of_mem_kept h hroot)).1
    | _ => rfl

theorem isAbsolute_normalize (path : Path) : path.normalize.isAbsolute = path.isAbsolute := by
  cases ha : path.isAbsolute with
  | true =>
    obtain ⟨names, -, hnames⟩ := exists_normalize ha
    rw [hnames, isAbsolute_ofNames]
  | false =>
    rw [normalize_of_relative ha, isAbsolute_intercalate (isSegment_of_mem_kept ha)]

-- A normal form is read as what was kept for it.
theorem track_normalize (path : Path) : path.normalize.track = path.kept.reverse := by
  cases ha : path.isAbsolute with
  | true =>
    obtain ⟨names, hkept, hmem⟩ := foldl_step_root fun hroot : .root ∈ path.steps =>
      (mem_steps_ne hroot).1 rfl
    have hk : path.kept.reverse = .root :: names.reverse.map Part.name := by
      have hroot : step [] .root = [.root] := rfl
      rw [kept, track_of_isAbsolute ha, List.foldl_cons, hroot, hkept]
      simp
    have hsteps : ∀ name ∈ names.reverse, IsStep name := fun name hname =>
      isStep_of_mem_steps (hmem name (List.mem_reverse.mp hname))
    have hn : path.normalize = ofNames names.reverse := by rw [normalize_eq_ofParts, hk, ofNames]
    rw [hn, track_of_isAbsolute (isAbsolute_ofNames _), steps_ofNames hsteps, hk]
  | false =>
    rw [track_of_relative ((isAbsolute_normalize path).trans ha), normalize_of_relative ha,
      steps_intercalate (isSegment_of_mem_kept ha)]

theorem kept_normalize (path : Path) : path.normalize.kept = path.kept := by
  rw [kept, track_normalize]
  exact foldl_step_kept path.track []

theorem normalize_idem (path : Path) : path.normalize.normalize = path.normalize := by
  rw [normalize_eq_ofParts, kept_normalize, ← normalize_eq_ofParts]

section Join

variable {dir : Path}

theorem join_of_isAbsolute (h : path.isAbsolute = true) (dir : Path) : dir.join path = path := by
  rw [join, h, if_pos rfl]

theorem track_join (h : path.isAbsolute = false) :
    (dir.join path).track = dir.track ++ path.track := by
  rw [track_of_relative h, track, track, isAbsolute_join h, steps_join h, List.append_assoc]

-- Both sides of a join may be normalized first.
theorem normalize_join_normalize (dir path : Path) :
    (dir.normalize.join path.normalize).normalize = (dir.join path).normalize := by
  cases ha : path.isAbsolute with
  | true =>
    rw [join_of_isAbsolute ((isAbsolute_normalize path).trans ha), join_of_isAbsolute ha,
      normalize_idem]
  | false =>
    have hn := (isAbsolute_normalize path).trans ha
    have hkept : (dir.normalize.join path.normalize).kept = (dir.join path).kept := by
      rw [kept, kept, track_join hn, track_join ha, track_normalize, track_normalize,
        List.foldl_append, List.foldl_append, kept, foldl_step_kept, kept, foldl_step_kept]
    rw [normalize_eq_ofParts, hkept, ← normalize_eq_ofParts]

theorem absolutize_eq (dir path : Path) : absolutize dir path = (dir.join path).normalize := by
  rw [absolutize]
  cases ha : path.isAbsolute with
  | true => rw [if_pos rfl, join_of_isAbsolute ha]
  | false => rw [if_neg Bool.false_ne_true]

theorem absolutize_normalize_dir (dir path : Path) :
    absolutize dir.normalize path = absolutize dir path := by
  rw [absolutize_eq, absolutize_eq, ← normalize_join_normalize, normalize_idem,
    normalize_join_normalize]

end Join

section Climb

variable {ups : Nat} {names : List String}

-- The relative path that leads up some times, and from there down along names.
def climb (ups : Nat) (names : List String) : Path :=
  mk ("/".intercalate (List.replicate ups ".." ++ names))

def climbParts (ups : Nat) (names : List String) : List Part :=
  List.replicate ups .up ++ names.map .name

theorem climb_eq (ups : Nat) (names : List String) :
    climb ups names = mk ("/".intercalate ((climbParts ups names).map Part.text)) := by
  rw [climb, climbParts, List.map_append, List.map_replicate, map_text_name]
  rfl

theorem isSegment_climbParts (h : ∀ name ∈ names, IsStep name) :
    ∀ part ∈ climbParts ups names, part.IsSegment := by
  refine List.forall_mem_append.mpr ⟨fun part hpart => ?_, isSegment_of_isStep h⟩
  rw [List.eq_of_mem_replicate hpart]
  exact Part.isSegment_up

theorem isAbsolute_climb (h : ∀ name ∈ names, IsStep name) :
    (climb ups names).isAbsolute = false := by
  rw [climb_eq, isAbsolute_intercalate (isSegment_climbParts h)]

theorem steps_climb (h : ∀ name ∈ names, IsStep name) :
    (climb ups names).steps = climbParts ups names := by
  rw [climb_eq, steps_intercalate (isSegment_climbParts h)]

theorem segments_climb (h : ∀ name ∈ names, IsStep name)
    (hne : List.replicate ups ".." ++ names ≠ []) :
    (climb ups names).segments = List.replicate ups ".." ++ names := by
  refine segments_intercalate (List.forall_mem_append.mpr ⟨fun text htext => ?_, ?_⟩) hne
  · rw [List.eq_of_mem_replicate htext]
    decide
  · exact fun name hname => (h name hname).no_slash

theorem foldl_step_ups (ups : Nat) :
    (List.replicate ups Part.up).foldl step [] = List.replicate ups .up := by
  induction ups with
  | zero => rfl
  | succ ups ih =>
    rw [List.replicate_succ', List.foldl_append, ih, ← List.replicate_succ', List.replicate_succ]
    cases ups <;> rfl

theorem normalize_climb (h : ∀ name ∈ names, IsStep name) :
    (climb ups names).normalize = climb ups names := by
  have hkept : (climb ups names).kept.reverse = climbParts ups names := by
    rw [kept, track_of_relative (isAbsolute_climb h), steps_climb h, climbParts, List.foldl_append,
      foldl_step_ups, foldl_step_names]
    simp
  rw [normalize_of_relative (isAbsolute_climb h), hkept, ← climb_eq]

-- A relative path normalizes to one that leads up, if at all, before it leads down.
theorem exists_normalize_climb (h : path.isAbsolute = false) :
    ∃ ups names, (∀ name ∈ names, IsStep name) ∧ path.normalize = climb ups names := by
  obtain ⟨names, ups, -, hkept⟩ := exists_foldl_step 0 fun part (hpart : part ∈ path.track) =>
    mem_steps_ne (track_of_relative h ▸ hpart)
  rw [List.replicate_zero] at hkept
  have hparts : path.kept.reverse = climbParts ups names.reverse := by
    rw [kept, hkept, climbParts]
    simp
  refine ⟨ups, names.reverse, fun name hname => ?_, ?_⟩
  · have hmem : .name name ∈ path.kept := by
      rw [← List.mem_reverse, hparts]
      exact List.mem_append_right _ (List.mem_map_of_mem hname)
    exact isStep_of_mem_steps (mem_steps_of_mem_kept h hmem)
  · rw [normalize_of_relative h, hparts, ← climb_eq]

end Climb

section Shape

variable {ups : Nat} {names : List String}

-- No segment of a normal path is `.`. Those that are `..` stand in front, and in a relative path
-- only. Slashes leave no empty segment behind the first one.
structure IsNormal (path : Path) : Prop where
  no_here : "." ∉ path.segments
  no_up : path.isAbsolute = true → ".." ∉ path.segments
  ups_first : path.isAbsolute = false →
    ∃ ups rest, path.segments = List.replicate ups ".." ++ rest ∧ ".." ∉ rest
  no_gap : path.text = "/" ∨ "" ∉ path.segments.tail

theorem isNormal_ofNames (h : ∀ name ∈ names, IsStep name) : (ofNames names).IsNormal := by
  by_cases hne : names = []
  · rw [hne]
    exact ⟨by decide, by decide, fun hr => absurd hr (by decide), .inl rfl⟩
  · have hsegments := segments_ofNames h hne
    have hmem : ∀ text, text ∈ names → text ≠ "" ∧ text ≠ "." ∧ text ≠ ".." := fun text ht =>
      ⟨(h text ht).ne_empty, (h text ht).ne_here, (h text ht).ne_up⟩
    refine ⟨?_, fun _ => ?_, fun hr => ?_, .inr ?_⟩
    · rw [hsegments, List.mem_cons, not_or]
      exact ⟨by decide, fun hm => (hmem _ hm).2.1 rfl⟩
    · rw [hsegments, List.mem_cons, not_or]
      exact ⟨by decide, fun hm => (hmem _ hm).2.2 rfl⟩
    · rw [isAbsolute_ofNames] at hr
      cases hr
    · rw [hsegments]
      exact fun hm => (hmem _ hm).1 rfl

theorem isNormal_climb (h : ∀ name ∈ names, IsStep name) : (climb ups names).IsNormal := by
  have hrelative : (climb ups names).isAbsolute = false := isAbsolute_climb h
  by_cases hne : List.replicate ups ".." ++ names = []
  · have hclimb : climb ups names = mk "" := by rw [climb, hne]; rfl
    rw [hclimb]
    exact ⟨by decide, by decide, fun _ => ⟨0, [""], by decide, by decide⟩, .inr (by decide)⟩
  · have hsegments := segments_climb h hne
    have hmem : ∀ text, text ∈ List.replicate ups ".." ++ names → text ≠ "" ∧ text ≠ "." := by
      intro text ht
      rcases List.mem_append.mp ht with ht | ht
      · rw [List.eq_of_mem_replicate ht]
        decide
      · exact ⟨(h text ht).ne_empty, (h text ht).ne_here⟩
    refine ⟨?_, fun ha => ?_, fun _ => ?_, .inr ?_⟩
    · rw [hsegments]
      exact fun hm => (hmem _ hm).2 rfl
    · rw [hrelative] at ha
      cases ha
    · exact ⟨ups, names, hsegments, fun hm => (h _ hm).ne_up rfl⟩
    · rw [hsegments]
      exact fun hm => (hmem _ (List.mem_of_mem_tail hm)).1 rfl

theorem isNormal_normalize (path : Path) : path.normalize.IsNormal := by
  cases ha : path.isAbsolute with
  | true =>
    obtain ⟨names, hsteps, hnames⟩ := exists_normalize ha
    exact hnames ▸ isNormal_ofNames hsteps
  | false =>
    obtain ⟨ups, names, hsteps, hclimb⟩ := exists_normalize_climb ha
    exact hclimb ▸ isNormal_climb hsteps

-- A path is the text of its segments with slashes between them.
theorem intercalate_segments (path : Path) : "/".intercalate path.segments = path.text := by
  have hslash : "/".toList = ['/'] := rfl
  rw [← String.toList_inj, String.toList_intercalate, segments, List.map_map, hslash]
  simp [Function.comp_def]

theorem no_slash_of_mem_segments {segment : String} (h : segment ∈ path.segments) :
    '/' ∉ segment.toList := by
  obtain ⟨piece, hpiece, rfl⟩ := List.mem_map.mp h
  simpa using not_mem_of_mem_splitOn hpiece

theorem exists_segments (path : Path) : ∃ first rest, path.segments = first :: rest :=
  List.exists_cons_of_ne_nil (by simp [segments])

-- A path begins at the root where its first segment is empty and not the only one.
theorem isAbsolute_iff {first : String} {rest : List String} (h : path.segments = first :: rest) :
    path.isAbsolute = true ↔ first = "" ∧ rest ≠ [] := by
  have hpath : path = mk ("/".intercalate (first :: rest)) := by rw [← h, intercalate_segments]
  have hslash := no_slash_of_mem_segments (h ▸ List.mem_cons_self : first ∈ path.segments)
  rw [hpath]
  cases rest with
  | nil =>
    rw [String.intercalate_singleton]
    simp [isAbsolute_of_no_slash hslash]
  | cons next rest =>
    rw [String.intercalate_cons_cons]
    by_cases hfirst : first = ""
    · simp [isAbsolute, hfirst]
    · obtain ⟨c, cs, hc⟩ := List.exists_cons_of_ne_nil
        (by simpa using hfirst : first.toList ≠ [])
      have hne : c ≠ '/' := by
        rintro rfl
        exact hslash (hc ▸ List.mem_cons_self)
      simp [isAbsolute, hc, hfirst, hne]

theorem IsNormal.isStep {segment : String} (h : path.IsNormal) (hs : segment ∈ path.segments)
    (hne : segment ≠ "") (hup : segment ≠ "..") : IsStep segment :=
  ⟨hne, fun he => h.no_here (he ▸ hs), hup, no_slash_of_mem_segments hs⟩

theorem IsNormal.exists_ofNames (h : path.IsNormal) (ha : path.isAbsolute = true) :
    ∃ names, (∀ name ∈ names, IsStep name) ∧ path = ofNames names := by
  obtain ⟨first, rest, hsegments⟩ := exists_segments path
  obtain ⟨rfl, hrest⟩ := (isAbsolute_iff hsegments).mp ha
  have hpath : path = Path.mk path.text := rfl
  rcases h.no_gap with hroot | hgap
  · exact ⟨[], List.forall_mem_nil _, by rw [hpath, hroot]; rfl⟩
  · refine ⟨rest, fun name hname => ?_, ?_⟩
    · have hmem : name ∈ path.segments := hsegments ▸ List.mem_cons_of_mem _ hname
      refine h.isStep hmem (fun he => hgap ?_) fun he => h.no_up ha (he ▸ hmem)
      rw [hsegments]
      exact he ▸ hname
    · rw [hpath, ← intercalate_segments, hsegments,
        String.intercalate_cons_of_ne_nil hrest, String.empty_append, ← text_ofNames]

theorem IsNormal.exists_climb (h : path.IsNormal) (ha : path.isAbsolute = false) :
    ∃ ups names, (∀ name ∈ names, IsStep name) ∧ path = climb ups names := by
  obtain ⟨ups, names, hups, hno⟩ := h.ups_first ha
  obtain ⟨first, rest, hsegments⟩ := exists_segments path
  have hpath : path = Path.mk ("/".intercalate path.segments) := by
    rw [intercalate_segments]
  by_cases hempty : first = ""
  · have hrest : rest = [] := by
      by_contra hne
      rw [(isAbsolute_iff hsegments).mpr ⟨hempty, hne⟩] at ha
      cases ha
    refine ⟨0, [], List.forall_mem_nil _, ?_⟩
    rw [hpath, hsegments, hempty, hrest]
    rfl
  · refine ⟨ups, names, fun name hname => ?_, by rw [hpath, hups, climb]⟩
    have hmem : name ∈ path.segments := hups ▸ List.mem_append_right _ hname
    refine h.isStep hmem ?_ fun he => hno (he ▸ hname)
    rintro rfl
    rw [hsegments] at hmem
    have htail := (List.mem_cons.mp hmem).resolve_left (Ne.symm hempty)
    rcases h.no_gap with hroot | hgap
    · have hslash : path.isAbsolute = true := by rw [isAbsolute, hroot]; rfl
      rw [ha] at hslash
      cases hslash
    · rw [hsegments] at hgap
      exact hgap htail

-- Normalizing leaves just the normal paths as they are.
theorem normalize_eq_self_iff : path.normalize = path ↔ path.IsNormal := by
  refine ⟨fun h => h ▸ isNormal_normalize path, fun h => ?_⟩
  cases ha : path.isAbsolute with
  | true =>
    obtain ⟨names, hsteps, rfl⟩ := h.exists_ofNames ha
    exact normalize_ofNames hsteps
  | false =>
    obtain ⟨ups, names, hsteps, rfl⟩ := h.exists_climb ha
    exact normalize_climb hsteps

end Shape

-- Normalizing keeps whether a path begins at the root, and gives a normal path, which is the path
-- itself if that was normal. What is joined, or made absolute, may be normalized before.
theorem normalize_canonical :
    (∀ path : Path, path.normalize.isAbsolute = path.isAbsolute ∧ path.normalize.IsNormal ∧
      path.normalize.normalize = path.normalize ∧ (path.normalize = path ↔ path.IsNormal)) ∧
    (∀ a b : Path, (a.join b).normalize = (a.normalize.join b.normalize).normalize) ∧
    ∀ dir path : Path, absolutize dir path.normalize = absolutize dir path := by
  refine ⟨fun path => ?_, fun a b => (normalize_join_normalize a b).symm, fun dir path => ?_⟩
  · exact ⟨isAbsolute_normalize path, isNormal_normalize path, normalize_idem path,
      normalize_eq_self_iff⟩
  · rw [absolutize_eq, absolutize_eq, ← normalize_join_normalize dir path.normalize,
      normalize_idem, normalize_join_normalize]

-- The root has no parent, and what leads above a relative path stays in front of it.
example : (mk "//a/./../../b/").normalize = mk "/b" ∧
    (mk "a/.././../b//c/").normalize = mk "../b/c" := by decide

end DocPipeline.Path
