import DocPipeline.Proofs.Path.Steps
import Mathlib.Data.List.Basic
import Mathlib.Data.List.Induction

namespace DocPipeline.Path

-- What a segment can be that leads into a directory.
structure IsStep (name : String) : Prop where
  ne_empty : name ≠ ""
  ne_here : name ≠ "."
  ne_up : name ≠ ".."
  no_slash : '/' ∉ name.toList

variable {dir names : List String} {name : String} {path : Path}

theorem IsStep.ofSegment? (h : IsStep name) : Part.ofSegment? name = some (.name name) := by
  rw [Part.ofSegment?, if_neg (not_or.mpr ⟨h.ne_empty, h.ne_here⟩), if_neg h.ne_up]

theorem not_mem_of_mem_splitOn {c : Char} {text piece : List Char} (h : piece ∈ text.splitOn c) :
    c ∉ piece := by
  induction hn : text.length using Nat.strongRecOn generalizing text with
  | _ n ih =>
    by_cases hc : c ∈ text
    · obtain ⟨front, rest, rfl, hfront⟩ := List.eq_append_cons_of_mem hc
      rw [List.splitOn_append_cons_self, List.splitOn_eq_singleton hfront] at h
      rcases List.mem_append.mp h with h | h
      · exact List.mem_singleton.mp h ▸ hfront
      · exact ih rest.length (by simp at hn; omega) h rfl
    · rw [List.splitOn_eq_singleton hc] at h
      exact List.mem_singleton.mp h ▸ hc

-- A name among the steps of a path is one of its segments.
theorem isStep_of_mem_steps (h : .name name ∈ path.steps) : IsStep name := by
  obtain ⟨segment, hsegment, hpart⟩ := List.mem_filterMap.mp h
  unfold Part.ofSegment? at hpart
  split at hpart
  · cases hpart
  next hstay =>
    obtain ⟨hempty, hhere⟩ := not_or.mp hstay
    split at hpart
    · cases hpart
    next hup =>
      cases hpart
      obtain ⟨piece, hpiece, rfl⟩ := List.mem_map.mp hsegment
      exact ⟨hempty, hhere, hup, by simpa using not_mem_of_mem_splitOn hpiece⟩

section Steps

@[simp] theorem step_root (kept : List Part) : step kept .root = .root :: kept := by
  rcases kept with _ | ⟨_ | _ | _ | _, _⟩ <;> rfl

@[simp] theorem step_here (kept : List Part) : step kept .here = kept := by
  rcases kept with _ | ⟨_ | _ | _ | _, _⟩ <;> rfl

@[simp] theorem step_name (kept : List Part) (value : String) :
    step kept (.name value) = .name value :: kept := by
  rcases kept with _ | ⟨_ | _ | _ | _, _⟩ <;> rfl

theorem foldl_step_names (names : List String) (base : List Part) :
    (names.map Part.name).foldl step base = (names.map Part.name).reverse ++ base := by
  induction names generalizing base with
  | nil => rfl
  | cons name names ih =>
    rw [List.map_cons, List.foldl_cons, step_name, ih]
    simp

-- Steps that come out as names alone never lead above where they begin.
theorem foldl_step_base {steps : List Part} {names : List String} (base : List Part)
    (h : steps.foldl step [] = names.map Part.name) :
    steps.foldl step base = names.map Part.name ++ base := by
  induction steps using List.reverseRecOn generalizing names with
  | nil =>
    rw [List.foldl_nil] at h
    rw [List.foldl_nil, ← h, List.nil_append]
  | append_singleton steps part ih =>
    rw [List.foldl_append, List.foldl_cons, List.foldl_nil] at h ⊢
    generalize hkept : steps.foldl step [] = kept at h
    cases part with
    | root =>
      rw [step_root] at h
      cases names <;> cases h
    | here =>
      rw [step_here] at h ⊢
      exact ih (hkept.trans h)
    | up =>
      rcases kept with _ | ⟨_ | _ | _ | last, kept⟩
      · cases names <;> cases h
      · cases names <;> cases h
      · cases names <;> cases h
      · cases names <;> cases h
      · have hk : kept = names.map Part.name := h
        have hlonger : steps.foldl step [] = (last :: names).map Part.name := by
          rw [hkept, hk]
          rfl
        rw [ih hlonger]
        rfl
    | name value =>
      rw [step_name] at h ⊢
      cases names with
      | nil => cases h
      | cons first names =>
        obtain ⟨hvalue, hk⟩ := List.cons.inj h
        rw [ih (hkept.trans hk), hvalue]
        rfl

-- From the root on there are only names, each from one of the steps.
theorem foldl_step_root {steps : List Part} (h : .root ∉ steps) :
    ∃ names : List String, steps.foldl step [.root] = names.map Part.name ++ [.root] ∧
      ∀ name ∈ names, .name name ∈ steps := by
  induction steps using List.reverseRecOn with
  | nil => exact ⟨[], rfl, nofun⟩
  | append_singleton steps part ih =>
    obtain ⟨names, hnames, hmem⟩ := ih fun hroot => h (List.mem_append_left _ hroot)
    rw [List.foldl_append, List.foldl_cons, List.foldl_nil, hnames]
    have hmore : ∀ name ∈ names, .name name ∈ steps ++ [part] :=
      fun name hname => List.mem_append_left _ (hmem name hname)
    cases part with
    | root => exact absurd (List.mem_append_right _ List.mem_cons_self) h
    | here => exact ⟨names, step_here _, hmore⟩
    | up =>
      cases names with
      | nil => exact ⟨[], rfl, hmore⟩
      | cons last names =>
        exact ⟨names, rfl, fun name hname => hmore name (List.mem_cons_of_mem _ hname)⟩
    | name value =>
      refine ⟨value :: names, step_name _ _, ?_⟩
      exact List.forall_mem_cons.mpr ⟨List.mem_append_right _ List.mem_cons_self, hmore⟩

end Steps

-- A part that a segment of its own text stands for.
structure Part.IsSegment (part : Part) : Prop where
  ofSegment? : Part.ofSegment? part.text = some part
  no_slash : '/' ∉ part.text.toList

theorem IsStep.isSegment (h : IsStep name) : (Part.name name).IsSegment :=
  ⟨h.ofSegment?, h.no_slash⟩

theorem Part.isSegment_up : Part.up.IsSegment := ⟨by decide, by decide⟩

theorem Part.IsSegment.ne_empty {part : Part} (h : part.IsSegment) : part.text ≠ "" := by
  intro he
  have hpart := h.ofSegment?
  rw [he] at hpart
  cases hpart

theorem segments_intercalate {texts : List String} (h : ∀ text ∈ texts, '/' ∉ text.toList)
    (hne : texts ≠ []) : (mk ("/".intercalate texts)).segments = texts := by
  have hsplit : (['/'].intercalate (texts.map String.toList)).splitOn '/' =
      texts.map String.toList :=
    List.splitOn_intercalate '/' (List.forall_mem_map.mpr h) (by simpa using hne)
  have hslash : "/".toList = ['/'] := rfl
  rw [segments, String.toList_intercalate, hslash, hsplit, List.map_map]
  simp [Function.comp_def]

-- Parts are read back from their texts.
theorem steps_intercalate {parts : List Part} (h : ∀ part ∈ parts, part.IsSegment) :
    (mk ("/".intercalate (parts.map Part.text))).steps = parts := by
  by_cases hne : parts = []
  · rw [hne]
    rfl
  · have hsegments : (mk ("/".intercalate (parts.map Part.text))).segments =
        parts.map Part.text := by
      refine segments_intercalate (fun text htext => ?_) (by simpa using hne)
      obtain ⟨part, hpart, rfl⟩ := List.mem_map.mp htext
      exact (h part hpart).no_slash
    have hread : parts.filterMap (Part.ofSegment? ∘ Part.text) = parts.filterMap some :=
      List.filterMap_congr fun part hpart => (h part hpart).ofSegment?
    rw [steps, hsegments, List.filterMap_map, hread, List.filterMap_some]

theorem isAbsolute_intercalate {parts : List Part} (h : ∀ part ∈ parts, part.IsSegment) :
    (mk ("/".intercalate (parts.map Part.text))).isAbsolute = false := by
  cases parts with
  | nil => rfl
  | cons part rest =>
    have hpart := h part List.mem_cons_self
    obtain ⟨c, cs, hc⟩ := List.exists_cons_of_ne_nil
      (by simpa using hpart.ne_empty : part.text.toList ≠ [])
    have hne : c ≠ '/' := by
      rintro rfl
      exact hpart.no_slash (hc ▸ List.mem_cons_self)
    cases rest with
    | nil => simp [isAbsolute, hc, hne]
    | cons next rest => simp [isAbsolute, String.intercalate_cons_cons, hc, hne]

theorem map_text_name (names : List String) : (names.map Part.name).map Part.text = names := by
  rw [List.map_map]
  exact List.map_id names

theorem isSegment_of_isStep (h : ∀ name ∈ names, IsStep name) :
    ∀ part ∈ names.map Part.name, part.IsSegment :=
  List.forall_mem_map.mpr fun name hname => (h name hname).isSegment

-- The absolute path of the names that lead from the root.
def ofNames (names : List String) : Path := ofParts (.root :: names.map .name)

theorem text_ofNames (names : List String) :
    (ofNames names).text = "/" ++ "/".intercalate names := by
  rw [ofNames, ofParts, map_text_name]

-- The characters of the path are those of its names.
theorem mem_text_ofNames {c : Char} (hc : c ≠ '/') (names : List String) :
    c ∈ (ofNames names).text.toList ↔ ∃ name ∈ names, c ∈ name.toList := by
  have hinter : c ∈ ("/".intercalate names).toList ↔ ∃ name ∈ names, c ∈ name.toList := by
    induction names with
    | nil => simp
    | cons name rest ih =>
      cases rest with
      | nil => simp
      | cons next rest =>
        rw [String.intercalate_cons_cons, String.toList_append, List.mem_append, ih]
        simp [hc]
  rw [text_ofNames, String.toList_append, List.mem_append, hinter]
  simp [hc]

theorem not_mem_text_front {c : Char} (hc : c ≠ '/') {front back : List String}
    (h : c ∉ (ofNames (front ++ back)).text.toList) : c ∉ (ofNames front).text.toList := by
  rw [mem_text_ofNames hc] at h ⊢
  rintro ⟨name, hname, hmem⟩
  exact h ⟨name, List.mem_append_left back hname, hmem⟩

theorem isAbsolute_ofNames (names : List String) : (ofNames names).isAbsolute = true := by
  simp [isAbsolute, text_ofNames]

theorem segments_ofNames (h : ∀ name ∈ names, IsStep name) (hne : names ≠ []) :
    (ofNames names).segments = "" :: names := by
  have htext : ofNames names = mk ("" ++ "/" ++ "/".intercalate names) := by
    rw [String.empty_append, ← text_ofNames]
  rw [htext, segments_slash, segments_intercalate (fun name hname => (h name hname).no_slash) hne]
  rfl

-- The path of the root alone ends in a slash.
theorem segments_ofNames_nil : (ofNames []).segments = ["", ""] := by decide

theorem steps_ofNames (h : ∀ name ∈ names, IsStep name) :
    (ofNames names).steps = names.map Part.name := by
  have htext : ofNames names = mk ("" ++ "/" ++ "/".intercalate ((names.map Part.name).map
      Part.text)) := by
    rw [String.empty_append]
    rfl
  have hfirst : (mk "").segments.filterMap Part.ofSegment? = [] := by decide
  rw [htext, steps, segments_slash, List.filterMap_append, hfirst, List.nil_append]
  exact steps_intercalate (isSegment_of_isStep h)

theorem parts_ofNames (h : ∀ name ∈ names, IsStep name) :
    (ofNames names).parts = .root :: names.map Part.name := by
  rw [parts_of_isAbsolute (isAbsolute_ofNames names), steps_ofNames h]

theorem normalize_of_steps (ha : path.isAbsolute = true)
    (hs : path.steps.foldl step [.root] = (names.map Part.name).reverse ++ [.root]) :
    path.normalize = ofNames names := by
  rw [normalize_eq, ha, if_pos rfl, List.singleton_append, List.foldl_cons]
  have hroot : step [] .root = [.root] := rfl
  rw [hroot, hs]
  simp [ofNames]

theorem normalize_ofNames (h : ∀ name ∈ names, IsStep name) :
    (ofNames names).normalize = ofNames names := by
  apply normalize_of_steps (isAbsolute_ofNames names)
  rw [steps_ofNames h, foldl_step_names]

-- An absolute path normalizes to the path of some names.
theorem exists_normalize (ha : path.isAbsolute = true) :
    ∃ names, (∀ name ∈ names, IsStep name) ∧ path.normalize = ofNames names := by
  obtain ⟨names, hsteps, hmem⟩ := foldl_step_root fun hroot : .root ∈ path.steps =>
    (mem_steps_ne hroot).1 rfl
  refine ⟨names.reverse, fun name hname => ?_, ?_⟩
  · exact isStep_of_mem_steps (hmem name (List.mem_reverse.mp hname))
  · apply normalize_of_steps ha
    rw [hsteps, List.map_reverse, List.reverse_reverse]

-- A normal absolute path is that of its names.
theorem exists_ofNames (ha : path.isAbsolute = true) (hn : path.normalize = path) :
    ∃ names, (∀ name ∈ names, IsStep name) ∧ path = ofNames names :=
  hn ▸ exists_normalize ha

theorem sameAs_ofNames {more : List String} (h : ∀ name ∈ names, IsStep name)
    (hm : ∀ name ∈ more, IsStep name) : (ofNames names).sameAs (ofNames more) = (names == more) := by
  have hinj : Function.Injective Part.name := fun _ _ he => Part.name.inj he
  have hiff : names.map Part.name = more.map Part.name ↔ names = more :=
    List.map_inj_right fun _ _ he => hinj he
  rw [sameAs, parts_ofNames h, parts_ofNames hm, Bool.eq_iff_iff]
  simp [hiff]

theorem eq_of_parts_ofNames {more : List String} (h : ∀ name ∈ names, IsStep name)
    (hm : ∀ name ∈ more, IsStep name) (heq : (ofNames names).parts = (ofNames more).parts) :
    names = more := by
  have hsame := sameAs_ofNames h hm
  rw [sameAs, Bool.eq_iff_iff, beq_iff_eq, beq_iff_eq] at hsame
  exact hsame.mp heq

section Join

theorem getLast?_ofNames (init : List String) (h : IsStep name) :
    (ofNames (init ++ [name])).text.toList.getLast? ≠ some '/' := by
  have htext : ∃ front, (ofNames (init ++ [name])).text = front ++ name := by
    rw [text_ofNames]
    by_cases hinit : init = []
    · exact ⟨"/", by rw [hinit, List.nil_append, String.intercalate_singleton]⟩
    · refine ⟨"/" ++ ("/".intercalate init ++ "/"), ?_⟩
      rw [String.intercalate_append_of_ne_nil hinit (by simp), String.intercalate_singleton]
      simp [String.append_assoc]
  obtain ⟨front, htext⟩ := htext
  have hchars : name.toList ≠ [] := by simpa using h.ne_empty
  rw [htext, String.toList_append, List.getLast?_append, List.getLast?_eq_some_getLast hchars,
    Option.some_or]
  exact fun he => h.no_slash (Option.some.inj he ▸ List.getLast_mem hchars)

-- Names joined to a path of names lead on from there.
theorem join_ofNames (hd : ∀ name ∈ dir, IsStep name) (h : ∀ name ∈ names, IsStep name)
    (hne : names ≠ []) :
    (ofNames dir).join ⟨"/".intercalate names⟩ = ofNames (dir ++ names) := by
  have hrelative := isAbsolute_intercalate (isSegment_of_isStep h)
  rw [map_text_name] at hrelative
  rw [join, if_neg (by simp [hrelative])]
  obtain rfl | ⟨init, last, rfl⟩ := List.eq_nil_or_concat dir
  · have htext : (ofNames []).text = "/" := rfl
    rw [htext, if_pos (by decide)]
    simp [ofNames, ofParts, Function.comp_def, Part.text]
  · have hlast := getLast?_ofNames init (hd last (by simp))
    have htext : (ofNames (init ++ [last])).text.toList ≠ [] := by simp [text_ofNames]
    rw [if_neg (by simpa [htext] using hlast)]
    rw [List.concat_eq_append]
    have hinter : "/".intercalate (init ++ [last] ++ names) =
        "/".intercalate (init ++ [last]) ++ "/" ++ "/".intercalate names :=
      String.intercalate_append_of_ne_nil (by simp) hne
    calc
      Path.mk ((ofNames (init ++ [last])).text ++ "/" ++ "/".intercalate names) =
          Path.mk (ofNames (init ++ [last] ++ names)).text := by
        rw [text_ofNames, text_ofNames, hinter]
        simp only [String.append_assoc]
      _ = ofNames (init ++ [last] ++ names) := rfl

theorem join_name (hd : ∀ name ∈ dir, IsStep name) (h : IsStep name) :
    (ofNames dir).join ⟨name⟩ = ofNames (dir ++ [name]) := by
  have hj := join_ofNames hd (List.forall_mem_singleton.mpr h) (by simp)
  rwa [String.intercalate_singleton] at hj

end Join

-- A relative path that comes out as names, below whatever it is joined to.
structure Inner (path : Path) (names : List String) : Prop where
  relative : path.isAbsolute = false
  steps : path.steps.foldl step [] = (names.map Part.name).reverse

theorem mem_of_mem_foldl_step {part : Part} {steps base : List Part}
    (h : part ∈ steps.foldl step base) : part ∈ steps ∨ part ∈ base := by
  induction steps generalizing base with
  | nil => exact .inr h
  | cons first steps ih =>
    rcases ih h with h | h
    · exact .inl (List.mem_cons_of_mem _ h)
    · have hstep : part = first ∨ part ∈ base := by
        unfold step at h
        split at h
        · exact .inr h
        · exact .inr (List.mem_cons_of_mem _ h)
        · exact .inr h
        · exact List.mem_cons.mp h
      rcases hstep with rfl | hbase
      · exact .inl List.mem_cons_self
      · exact .inr hbase

theorem Inner.isStep (h : Inner path names) : ∀ name ∈ names, IsStep name := by
  intro name hname
  have hmem : Part.name name ∈ path.steps.foldl step [] := by
    rw [h.steps, List.mem_reverse]
    exact List.mem_map_of_mem hname
  exact isStep_of_mem_steps ((mem_of_mem_foldl_step hmem).resolve_right (List.not_mem_nil))

theorem Inner.absolutize (h : Inner path names) (hd : ∀ name ∈ dir, IsStep name) :
    absolutize (ofNames dir) path = ofNames (dir ++ names) := by
  rw [Path.absolutize, h.relative]
  apply normalize_of_steps
  · rw [isAbsolute_join h.relative, isAbsolute_ofNames]
  · have hsteps : path.steps.foldl step [] = names.reverse.map Part.name := by
      rw [h.steps, List.map_reverse]
    rw [steps_join h.relative, steps_ofNames hd, List.foldl_append, foldl_step_names,
      foldl_step_base _ hsteps]
    simp

theorem absolutize_ofNames (h : ∀ name ∈ names, IsStep name) (dir : Path) :
    absolutize dir (ofNames names) = ofNames names := by
  rw [absolutize, if_pos (isAbsolute_ofNames names), normalize_ofNames h]

section Resolution

variable {dir : Path}

-- From the directory of some names, where one segment of a path leads: an empty one and a `.` stay,
-- a `..` leads to the parent, which the root is of itself, and a name leads into the directory.
def lead (names : List String) (segment : String) : List String :=
  if segment = "" ∨ segment = "." then names
  else if segment = ".." then names.dropLast
  else names ++ [segment]

-- Where a path leads, segment by segment: from the root if it is absolute, else from where the
-- directory leads from the root.
def resolution (dir path : Path) : Path :=
  ofNames (path.segments.foldl lead
    (if path.isAbsolute then [] else dir.segments.foldl lead []))

theorem foldl_step_lead (segments names : List String) :
    (segments.filterMap Part.ofSegment?).foldl step ((names.map Part.name).reverse ++ [.root]) =
      ((segments.foldl lead names).map Part.name).reverse ++ [.root] := by
  induction segments generalizing names with
  | nil => rfl
  | cons segment segments ih =>
    rw [List.foldl_cons, ← ih, List.filterMap_cons, lead, Part.ofSegment?]
    by_cases hstay : segment = "" ∨ segment = "."
    · rw [if_pos hstay, if_pos hstay]
    rw [if_neg hstay, if_neg hstay]
    by_cases hup : segment = ".."
    · rw [if_pos hup, if_pos hup]
      obtain rfl | ⟨init, last, rfl⟩ := List.eq_nil_or_concat names
      · rfl
      · rw [List.concat_eq_append, List.dropLast_concat, List.map_append, List.reverse_append]
        rfl
    · rw [if_neg hup, if_neg hup, List.map_append, List.reverse_append]
      rw [List.foldl_cons, step_name]
      rfl

-- Making a path absolute leads where reading it segment by segment does.
theorem absolutize_eq_resolution (hd : dir.isAbsolute = true) (path : Path) :
    absolutize dir path = resolution dir path := by
  rw [absolutize, resolution]
  cases ha : path.isAbsolute with
  | true =>
    exact normalize_of_steps ha (foldl_step_lead path.segments [])
  | false =>
    apply normalize_of_steps
    · rw [isAbsolute_join ha, hd]
    · rw [steps_join ha, List.foldl_append]
      have hdir := foldl_step_lead dir.segments []
      rw [List.map_nil, List.reverse_nil, List.nil_append] at hdir
      rw [steps, hdir]
      exact foldl_step_lead path.segments _

-- What was made absolute is absolute and normal.
theorem exists_absolutize (hd : dir.isAbsolute = true) (path : Path) :
    ∃ names, (∀ name ∈ names, IsStep name) ∧ absolutize dir path = ofNames names := by
  rw [absolutize]
  cases ha : path.isAbsolute with
  | true => exact exists_normalize ha
  | false => exact exists_normalize ((isAbsolute_join ha).trans hd)

theorem isAbsolute_absolutize (hd : dir.isAbsolute = true) (path : Path) :
    (absolutize dir path).isAbsolute = true := by
  obtain ⟨names, _, hnames⟩ := exists_absolutize hd path
  rw [hnames, isAbsolute_ofNames]

theorem normalize_absolutize (hd : dir.isAbsolute = true) (path : Path) :
    (absolutize dir path).normalize = absolutize dir path := by
  obtain ⟨names, hsteps, hnames⟩ := exists_absolutize hd path
  rw [hnames, normalize_ofNames hsteps]

end Resolution

end DocPipeline.Path
