import DocPipeline.Proofs.Path.Relative
import Mathlib.Data.List.TakeWhile

namespace DocPipeline.Path

variable {base base' : Path} {names : List String} {ups : Nat}

def Part.isName : Part → Bool
  | .name _ => true
  | _ => false

-- What relative paths show of the spelling of a directory: the names in front of its first `..`, and
-- how many steps it takes.
def outlook (dir : Path) : List Part × Nat := (dir.steps.takeWhile Part.isName, dir.steps.length)

theorem exists_names {parts : List Part} (h : ∀ part ∈ parts, part.isName = true) :
    ∃ names : List String, parts = names.map .name := by
  induction parts with
  | nil => exact ⟨[], rfl⟩
  | cons part parts ih =>
    obtain ⟨hpart, hparts⟩ := List.forall_mem_cons.mp h
    obtain ⟨names, rfl⟩ := ih hparts
    cases part with
    | name value => exact ⟨value :: names, rfl⟩
    | _ => cases hpart

theorem isStep_of_steps {rest : List Part} (h : base.steps = names.map .name ++ rest) :
    ∀ name ∈ names, IsStep name := by
  intro name hname
  have hmem : .name name ∈ base.steps := h ▸ List.mem_append_left _ (List.mem_map_of_mem hname)
  exact isStep_of_mem_steps hmem

-- The names in front of the first `..` of a directory.
theorem exists_lead (base : Path) : ∃ lead : List String,
    base.steps.takeWhile Part.isName = lead.map .name ∧
      base.steps = lead.map .name ++ base.steps.dropWhile Part.isName := by
  obtain ⟨lead, hlead⟩ := exists_names fun part
    (hpart : part ∈ base.steps.takeWhile Part.isName) =>
      List.all_eq_true.mp List.all_takeWhile part hpart
  exact ⟨lead, hlead, by rw [← hlead, List.takeWhile_append_dropWhile]⟩

theorem apart_append {above rest : List Part} {below : List String} (h : Apart above below)
    (hrest : ∀ name, rest.head? ≠ some (.name name)) : Apart (above ++ rest) below := by
  intro name hhead
  cases above with
  | nil => exact absurd hhead (hrest name)
  | cons part above => exact h name hhead

theorem head?_dropWhile_isName (parts : List Part) (name : String) :
    (parts.dropWhile Part.isName).head? ≠ some (.name name) := by
  intro hhead
  have hnot := List.head?_dropWhile_not Part.isName parts
  rw [hhead] at hnot
  cases hnot

theorem relativeTo_of_lead {common below : List String} {above : List Part}
    (hb : base.isAbsolute = true)
    (hlead : base.steps.takeWhile Part.isName = common.map .name ++ above)
    (h : ∀ name ∈ common ++ below, IsStep name) (ha : Apart above below) :
    relativeTo base (ofNames (common ++ below)) =
      (climb (base.steps.length - common.length) below).text := by
  have hs : base.steps = common.map .name ++ (above ++ base.steps.dropWhile Part.isName) := by
    rw [← List.append_assoc, ← hlead, List.takeWhile_append_dropWhile]
  have hlength := congrArg List.length hs
  rw [List.length_append, List.length_map] at hlength
  rw [relativeTo_of_common hb hs h (apart_append ha (head?_dropWhile_isName _)), hlength,
    Nat.add_sub_cancel_left]

-- The relative path to a normal path depends on the outlook alone.
theorem relativeTo_congr (hb : base.isAbsolute = true) (hb' : base'.isAbsolute = true)
    (ho : base.outlook = base'.outlook) (h : ∀ name ∈ names, IsStep name) :
    relativeTo base (ofNames names) = relativeTo base' (ofNames names) := by
  obtain ⟨hlead, hlength⟩ := Prod.mk.inj ho
  obtain ⟨common, above, below, hcommon, rfl, hapart⟩ :=
    exists_common (base.steps.takeWhile Part.isName) names
  rw [relativeTo_of_lead hb hcommon h hapart, relativeTo_of_lead hb' (hlead ▸ hcommon) h hapart,
    hlength]

theorem climbParts_injective {ups' : Nat} {names' : List String}
    (h : climbParts ups names = climbParts ups' names') : ups = ups' ∧ names = names' := by
  induction ups generalizing ups' with
  | zero =>
    cases ups' with
    | zero => exact ⟨rfl, name_injective.list_map h⟩
    | succ ups' => cases names <;> cases h
  | succ ups ih =>
    cases ups' with
    | zero => cases names' <;> cases h
    | succ ups' =>
      obtain ⟨rfl, rfl⟩ := ih (List.cons.inj h).2
      exact ⟨rfl, rfl⟩

theorem climb_injective {ups' : Nat} {names' : List String} (h : ∀ name ∈ names, IsStep name)
    (h' : ∀ name ∈ names', IsStep name) (he : (climb ups names).text = (climb ups' names').text) :
    ups = ups' ∧ names = names' := by
  have hpath : climb ups names = climb ups' names' := congrArg mk he
  apply climbParts_injective
  rw [← steps_climb h, ← steps_climb h', hpath]

-- The names in front of the first `..` lead as far along any directory with the same relative paths.
theorem takeWhile_prefix (hb : base.isAbsolute = true) (hb' : base'.isAbsolute = true)
    (h : ∀ names, (∀ name ∈ names, IsStep name) →
      relativeTo base (ofNames names) = relativeTo base' (ofNames names)) :
    base.steps.takeWhile Part.isName <+: base'.steps.takeWhile Part.isName := by
  obtain ⟨lead, htake, hs⟩ := exists_lead base
  have hlead := isStep_of_steps hs
  obtain ⟨common, above, below, hs', rfl, hapart⟩ := exists_common base'.steps lead
  have hall : ∀ name ∈ common ++ below ++ [], IsStep name := by
    rwa [List.append_nil]
  have hsame := h _ hall
  rw [relativeTo_of_common hb hs hall (apart_nil_right _), List.append_nil,
    relativeTo_of_common hb' hs' hlead hapart] at hsame
  obtain ⟨-, rfl⟩ := climb_injective (List.forall_mem_nil _) (List.forall_mem_append.mp hlead).2 hsame
  rw [htake, hs', List.append_nil, List.takeWhile_append_of_pos (by simp [Part.isName])]
  exact List.prefix_append _ _

theorem outlook_eq_of_relativeTo (hb : base.isAbsolute = true) (hb' : base'.isAbsolute = true)
    (h : ∀ names, (∀ name ∈ names, IsStep name) →
      relativeTo base (ofNames names) = relativeTo base' (ofNames names)) :
    base.outlook = base'.outlook := by
  have hlead := takeWhile_prefix hb hb' h
  have hlead' := takeWhile_prefix hb' hb fun names hnames => (h names hnames).symm
  -- the relative path to the root leads up once for each step
  have hroot : ∀ {dir : Path}, dir.isAbsolute = true →
      relativeTo dir (ofNames []) = (climb dir.steps.length []).text := by
    intro dir hd
    exact @relativeTo_of_common dir [] [] dir.steps hd rfl (List.forall_mem_nil _) (apart_nil_right _)
  have hsame := h [] (List.forall_mem_nil _)
  rw [hroot hb, hroot hb'] at hsame
  obtain ⟨hlength, -⟩ := climb_injective (List.forall_mem_nil _) (List.forall_mem_nil _) hsame
  rw [outlook, outlook, hlength, hlead.eq_of_length_le hlead'.length_le]

-- The steps are names alone just where no segment is `..`.
theorem forall_isName_steps : (∀ part ∈ base.steps, part.isName = true) ↔ ".." ∉ base.segments := by
  constructor
  · intro h hmem
    exact Bool.false_ne_true (h .up (List.mem_filterMap.mpr ⟨"..", hmem, rfl⟩))
  · intro h part hpart
    obtain ⟨segment, hsegment, hread⟩ := List.mem_filterMap.mp hpart
    cases part with
    | root => exact absurd rfl (mem_steps_ne hpart).1
    | here => exact absurd rfl (mem_steps_ne hpart).2
    | up =>
      have hup : segment = ".." := (Part.text_of_ofSegment? hread).symm
      exact absurd (hup ▸ hsegment) h
    | name value => rfl

theorem outlook_ofNames (h : ∀ name ∈ names, IsStep name) :
    (ofNames names).outlook = (names.map .name, names.length) := by
  have hall : ∀ part ∈ names.map Part.name, part.isName = true := by
    simp [Part.isName]
  rw [outlook, steps_ofNames h, List.takeWhile_eq_self_iff.mpr hall, List.length_map]

-- A spelling has the outlook of the normal form just where it has no `..`.
theorem outlook_normalize_iff (ha : base.isAbsolute = true) :
    base.outlook = base.normalize.outlook ↔ ".." ∉ base.segments := by
  rw [← forall_isName_steps]
  constructor
  · intro h
    obtain ⟨names, hsteps, hnormal⟩ := exists_normalize ha
    rw [hnormal, outlook_ofNames hsteps] at h
    obtain ⟨hlead, hlength⟩ := Prod.mk.inj h
    have hwhole := (List.takeWhile_prefix Part.isName (l := base.steps)).eq_of_length
      (by rw [hlead, hlength, List.length_map])
    exact List.takeWhile_eq_self_iff.mp hwhole
  · intro h
    obtain ⟨names, hnames⟩ := exists_names h
    have hsteps := isStep_of_steps (hnames.trans (List.append_nil _).symm)
    have hnormal : base.normalize = ofNames names :=
      normalize_of_steps ha (by rw [hnames, foldl_step_names])
    rw [hnormal, outlook, outlook, steps_ofNames hsteps, hnames]

end DocPipeline.Path
