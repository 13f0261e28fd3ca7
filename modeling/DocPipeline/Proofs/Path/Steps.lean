import DocPipeline.Path.Basic

namespace DocPipeline.Path

-- The parts of a path without the root and without a leading `.`. Joining paths appends them.
def steps (path : Path) : List Part := path.segments.filterMap Part.ofSegment?

theorem segments_slash (s t : String) :
    (mk (s ++ "/" ++ t)).segments = (mk s).segments ++ (mk t).segments := by
  simp only [segments, String.toList_append]
  have h : "/".toList = ['/'] := rfl
  rw [h, List.append_assoc, List.singleton_append, List.splitOn_append_cons_self, List.map_append]

theorem segments_of_no_slash {text : String} (h : '/' ∉ text.toList) :
    (mk text).segments = [text] := by
  rw [segments, List.splitOn_eq_singleton h, List.map_singleton, String.ofList_toList]

theorem isAbsolute_of_no_slash {text : String} (h : '/' ∉ text.toList) :
    (mk text).isAbsolute = false := by
  cases hc : text.toList with
  | nil => simp [isAbsolute, hc]
  | cons c cs =>
    have hne : c ≠ '/' := by
      rintro rfl
      exact h (hc ▸ List.mem_cons_self)
    simp [isAbsolute, hc, hne]

section Join

variable {dir path : Path}

-- Between a directory and a relative path there is a slash at most.
theorem toList_join (dir : Path) (hp : path.isAbsolute = false) :
    ∃ between, (dir.join path).text.toList = dir.text.toList ++ between ++ path.text.toList ∧
      ∀ c ∈ between, c = '/' := by
  unfold join
  rw [if_neg (by simp [hp])]
  split
  · exact ⟨[], by simp, nofun⟩
  · refine ⟨['/'], by simp, fun c hc => List.mem_singleton.mp hc⟩

theorem join_of_empty (h : dir.text = "") : dir.join path = path := by
  have hj : dir.join path = if path.isAbsolute then path else ⟨dir.text ++ path.text⟩ := by
    simp [join, h]
  rw [hj, h, String.empty_append, ite_self]

-- A relative path comes after the segments of the directory, of which a slash at the end leaves an
-- empty one.
theorem segments_join (hp : path.isAbsolute = false) (hd : dir.text ≠ "") :
    ∃ front, (dir.join path).segments = front ++ path.segments ∧
      (dir.segments = front ∨ dir.segments = front ++ [""]) := by
  by_cases hslash : dir.text.toList.getLast? = some '/'
  · obtain ⟨front, hfront⟩ := List.getLast?_eq_some_iff.mp hslash
    have htext : dir.text = String.ofList front ++ "/" ++ "" := by
      rw [← String.toList_inj, hfront]
      simp
    refine ⟨(mk (String.ofList front)).segments, ?_, .inr ?_⟩
    · have hj : dir.join path = mk (String.ofList front ++ "/" ++ path.text) := by
        simp [join, hp, htext]
      rw [hj, segments_slash]
    · have hdir : dir = mk (String.ofList front ++ "/" ++ "") := congrArg mk htext
      rw [hdir, segments_slash]
      rfl
  · refine ⟨dir.segments, ?_, .inl rfl⟩
    have hj : dir.join path = mk (dir.text ++ "/" ++ path.text) := by
      simp [join, hp, hd, hslash]
    rw [hj, segments_slash]

theorem isAbsolute_join (hp : path.isAbsolute = false) :
    (dir.join path).isAbsolute = dir.isAbsolute := by
  by_cases hd : dir.text = ""
  · rw [join_of_empty hd, hp, isAbsolute, hd]
    rfl
  · obtain ⟨c, cs, hc⟩ := List.exists_cons_of_ne_nil (by simpa using hd : dir.text.toList ≠ [])
    have hj : ∃ rest, (dir.join path).text.toList = c :: rest := by
      unfold join
      rw [if_neg (by simp [hp])]
      split <;> exact ⟨_, by simp [hc]; rfl⟩
    obtain ⟨rest, hrest⟩ := hj
    rw [isAbsolute, isAbsolute, hrest, hc]
    rfl

theorem steps_join (hp : path.isAbsolute = false) :
    (dir.join path).steps = dir.steps ++ path.steps := by
  by_cases hd : dir.text = ""
  · have he : dir.steps = [] := by
      simp [steps, segments, hd, Part.ofSegment?]
    rw [join_of_empty hd, he, List.nil_append]
  · obtain ⟨front, hj, hfront⟩ := segments_join hp hd
    have hsteps : dir.steps = front.filterMap Part.ofSegment? := by
      obtain h | h := hfront <;> simp [steps, h, Part.ofSegment?]
    rw [hsteps, steps, hj, List.filterMap_append, ← steps]

end Join

theorem Part.ofSegment?_eq_none_iff {segment : String} :
    Part.ofSegment? segment = none ↔ segment = "" ∨ segment = "." := by
  rw [Part.ofSegment?]
  split
  next hstay => exact iff_of_true rfl hstay
  next hstay => split <;> exact iff_of_false nofun hstay

theorem Part.ofSegment?_eq_name_iff {segment : String} :
    Part.ofSegment? segment = some (.name segment) ↔
      ¬ (segment = "" ∨ segment = ".") ∧ segment ≠ ".." := by
  rw [Part.ofSegment?]
  split
  next hstay => exact iff_of_false nofun fun h => h.1 hstay
  next hstay =>
    split
    next hup => exact iff_of_false nofun fun h => h.2 hup
    next hup => exact iff_of_true rfl ⟨hstay, hup⟩

-- A step is never the root, and never stays where it is.
theorem Part.ofSegment?_ne {segment : String} {part : Part}
    (h : Part.ofSegment? segment = some part) : part ≠ .root ∧ part ≠ .here := by
  unfold Part.ofSegment? at h
  split at h
  · cases h
  · split at h <;> cases h <;> exact ⟨nofun, nofun⟩

theorem Part.text_of_ofSegment? {segment : String} {part : Part}
    (h : Part.ofSegment? segment = some part) : part.text = segment := by
  unfold Part.ofSegment? at h
  split at h
  · cases h
  · split at h
    next hup =>
      cases h
      exact hup.symm
    next =>
      cases h
      rfl

theorem mem_steps_ne {path : Path} {part : Part} (h : part ∈ path.steps) :
    part ≠ .root ∧ part ≠ .here := by
  obtain ⟨segment, _, hs⟩ := List.mem_filterMap.mp h
  exact Part.ofSegment?_ne hs

theorem head_steps_ne {path : Path} {part : Part} {rest : List Part}
    (h : path.steps = part :: rest) : part ≠ .root ∧ part ≠ .here :=
  mem_steps_ne (h ▸ List.mem_cons_self)

theorem parts_of_isAbsolute {path : Path} (h : path.isAbsolute = true) :
    path.parts = .root :: path.steps := by
  simp only [parts, h, if_true, steps]

theorem parts_of_relative {path : Path} (h : path.isAbsolute = false) :
    path.parts = path.steps ∨ path.parts = .here :: path.steps := by
  simp only [parts, h, Bool.false_eq_true, if_false, steps]
  split
  · exact .inr rfl
  · exact .inl rfl

-- The parts tell where a path begins and which steps it takes.
theorem isAbsolute_eq_of_parts {p q : Path} (h : p.parts = q.parts) :
    p.isAbsolute = q.isAbsolute := by
  have hne : ∀ {p q : Path}, p.parts = q.parts → p.isAbsolute = true → q.isAbsolute = true := by
    intro p q h hp
    cases hq : q.isAbsolute with
    | true => rfl
    | false =>
      rw [parts_of_isAbsolute hp] at h
      obtain hs | hs := parts_of_relative hq <;> rw [hs] at h
      · exact absurd rfl (head_steps_ne h.symm).1
      · cases h
  cases hp : p.isAbsolute <;> cases hq : q.isAbsolute <;> try rfl
  · rw [hne h.symm hq] at hp
    cases hp
  · rw [hne h hp] at hq
    cases hq

theorem steps_eq_of_parts {p q : Path} (h : p.parts = q.parts) : p.steps = q.steps := by
  have hq := isAbsolute_eq_of_parts h
  cases hp : p.isAbsolute with
  | true =>
    rw [hp] at hq
    rw [parts_of_isAbsolute hp, parts_of_isAbsolute hq.symm] at h
    exact (List.cons.inj h).2
  | false =>
    rw [hp] at hq
    obtain hp | hp := parts_of_relative hp <;> obtain hq | hq := parts_of_relative hq.symm <;>
      rw [hp, hq] at h
    · exact h
    · exact absurd rfl (head_steps_ne h).2
    · exact absurd rfl (head_steps_ne h.symm).2
    · exact (List.cons.inj h).2

theorem normalize_eq (path : Path) :
    path.normalize = ofParts
      (((if path.isAbsolute then [Part.root] else []) ++ path.steps).foldl step []).reverse := by
  cases h : path.isAbsolute with
  | true => rw [normalize, parts_of_isAbsolute h, if_pos rfl, List.singleton_append]
  | false =>
    rw [normalize, if_neg (by simp), List.nil_append]
    obtain hp | hp := parts_of_relative h <;> rw [hp]
    rfl

-- Two spellings of a path name one file, whatever directory it is looked for in.
theorem absolutize_congr (dir : Path) {p q : Path} (h : p.sameAs q) :
    absolutize dir p = absolutize dir q := by
  have hparts : p.parts = q.parts := by simpa [sameAs] using h
  have habs := isAbsolute_eq_of_parts hparts
  have hsteps := steps_eq_of_parts hparts
  cases hp : p.isAbsolute with
  | true =>
    rw [hp] at habs
    simp only [absolutize, hp, ← habs, if_true]
    rw [normalize_eq, normalize_eq, hp, ← habs, hsteps]
  | false =>
    rw [hp] at habs
    simp only [absolutize, hp, ← habs, Bool.false_eq_true, if_false]
    rw [normalize_eq, normalize_eq, isAbsolute_join hp, isAbsolute_join habs.symm, steps_join hp,
      steps_join habs.symm, hsteps]

end DocPipeline.Path
