import DocPipeline.Proofs.Path.Outlook

namespace DocPipeline.Path

variable {base first second : List Part} {front back : List Part} {names : List String}
  {dir path : Path} {ups : Nat}

section Away

-- The parts of a relative path, of which a file outside may give the root.
def away (base target : List Part) : List Part :=
  List.replicate (dropCommon base target).1.length .up ++ (dropCommon base target).2

theorem relativeTo_eq (base path : Path) :
    relativeTo base path = "/".intercalate ((away base.parts path.parts).map Part.text) := by
  rw [relativeTo, away, List.map_append, List.map_replicate, ← List.map_const']
  rfl

theorem exists_dropCommon (base target : List Part) :
    ∃ common, base = common ++ (dropCommon base target).1 ∧
      target = common ++ (dropCommon base target).2 ∧
      ∀ part, (dropCommon base target).1.head? = some part →
        (dropCommon base target).2.head? ≠ some part := by
  fun_induction dropCommon base target with
  | case1 base part target ih =>
    obtain ⟨common, hbase, htarget, hapart⟩ := ih
    exact ⟨part :: common, congrArg (part :: ·) hbase, congrArg (part :: ·) htarget, hapart⟩
  | case2 part base other target hne =>
    refine ⟨[], rfl, rfl, fun head hhead hother => hne ?_⟩
    cases hhead
    cases hother
    rfl
  | case3 base target hnil =>
    refine ⟨[], rfl, rfl, fun head hhead hother => ?_⟩
    obtain ⟨rest, rfl⟩ := List.head?_eq_some_iff.mp hhead
    obtain ⟨rest', rfl⟩ := List.head?_eq_some_iff.mp hother
    exact hnil _ _ _ _ rfl rfl

-- Nothing but `..` stands in front of a `..`.
def Straight (parts : List Part) : Prop :=
  (∃ names : List String, parts = .root :: names.map .name) ∨
    ∃ ups names, parts = climbParts ups names

theorem up_not_mem_names (names : List String) : Part.up ∉ names.map Part.name := by
  simp

theorem Straight.eq_up (h : Straight (front ++ .up :: back)) : ∀ part ∈ front, part = .up := by
  obtain ⟨names, hnames⟩ | ⟨ups, names, hclimb⟩ := h
  · have hmem : Part.up ∈ Part.root :: names.map Part.name := hnames ▸ by simp
    simp at hmem
  · induction front generalizing ups with
    | nil => exact List.forall_mem_nil _
    | cons part front ih =>
      cases ups with
      | zero =>
        have hmem : Part.up ∈ names.map Part.name := by
          have hclimb : part :: front ++ .up :: back = names.map .name := hclimb
          rw [← hclimb]
          simp
        exact absurd hmem (up_not_mem_names names)
      | succ ups =>
        obtain ⟨hpart, hrest⟩ := List.cons.inj hclimb
        exact List.forall_mem_cons.mpr ⟨hpart, ih ups hrest⟩

theorem Straight.eq_nil_of_root (h : Straight (front ++ .root :: back)) : front = [] := by
  obtain ⟨names, hnames⟩ | ⟨ups, names, hclimb⟩ := h
  · cases front with
    | nil => rfl
    | cons part front =>
      have hmem : Part.root ∈ names.map Part.name := (List.cons.inj hnames).2 ▸ by simp
      simp at hmem
  · have hmem : Part.root ∈ climbParts ups names := hclimb ▸ by simp
    simp [climbParts] at hmem

-- A file that is not found from the root leads up as often as the directory does.
def Reaches (base parts : List Part) : Prop :=
  parts.head? = some .root ∨
    ∀ ups, List.replicate ups Part.up <+: base → List.replicate ups Part.up <+: parts

theorem away_injective_of_longer {common more above below below' : List Part}
    (hr : Reaches (common ++ (more ++ above)) (common ++ below))
    (hs : Straight (common ++ (more ++ below')))
    (hapart : ∀ part, (more ++ above).head? = some part → below.head? ≠ some part)
    (h : List.replicate (more ++ above).length Part.up ++ below =
      List.replicate above.length .up ++ below') :
    common ++ below = common ++ (more ++ below') := by
  have hbelow : below' = List.replicate more.length .up ++ below := by
    rw [List.length_append, Nat.add_comm, ← List.replicate_append_replicate, List.append_assoc] at h
    exact (List.append_cancel_left h).symm
  subst hbelow
  cases more with
  | nil => rfl
  | cons part more =>
    -- the path that leads up again has nothing but `..` in front
    have hups : ∀ other ∈ common ++ part :: more, other = .up := by
      have hclimb : Straight ((common ++ part :: more) ++
          .up :: (List.replicate more.length .up ++ below)) := by
        simpa [List.replicate_succ, List.append_assoc] using hs
      exact hclimb.eq_up
    have hrep := List.eq_replicate_of_mem hups
    rcases hr with hroot | hreach
    · cases common with
      | nil =>
        obtain ⟨rest, hrest⟩ := List.head?_eq_some_iff.mp hroot
        obtain rfl : below = .root :: rest := hrest
        have hroot : Straight (((part :: more) ++ List.replicate (more.length + 1) .up) ++
            .root :: rest) := by
          simpa using hs
        cases hroot.eq_nil_of_root
      | cons first common =>
        have hfirst := hups first List.mem_cons_self
        rw [List.cons_append, List.head?_cons, hfirst] at hroot
        cases hroot
    · have hprefix : (common ++ part :: more) <+: common ++ below := by
        rw [hrep]
        refine hreach _ ?_
        rw [← hrep]
        exact ⟨above, by simp⟩
      obtain ⟨rest, hrest⟩ := (List.prefix_append_right_inj common).mp hprefix
      exact absurd (by rw [← hrest]; rfl) (hapart part rfl)

theorem away_injective (hr : Reaches base first) (hr' : Reaches base second)
    (hs : Straight first) (hs' : Straight second) (h : away base first = away base second) :
    first = second := by
  obtain ⟨common, hbase, hfirst, hapart⟩ := exists_dropCommon base first
  obtain ⟨common', hbase', hsecond, hapart'⟩ := exists_dropCommon base second
  unfold away at h
  generalize dropCommon base first = left at *
  generalize dropCommon base second = right at *
  obtain ⟨above, below⟩ := left
  obtain ⟨above', below'⟩ := right
  dsimp only at *
  subst hfirst hsecond
  rcases List.append_eq_append_iff.mp (hbase.symm.trans hbase') with
    ⟨more, rfl, rfl⟩ | ⟨more, rfl, rfl⟩
  · subst hbase
    rw [List.append_assoc] at hs' ⊢
    exact away_injective_of_longer hr hs' hapart h
  · subst hbase'
    rw [List.append_assoc] at hs ⊢
    exact (away_injective_of_longer hr' hs hapart' h.symm).symm

end Away

section Texts

-- What a part is in a text: the root leaves two empty segments between slashes.
def Part.pieces : Part → List String
  | .root => ["", ""]
  | part => [part.text]

def Part.IsPiece (part : Part) : Prop := part = .root ∨ part.IsSegment

theorem Part.IsPiece.exists_pieces {part : Part} (h : part.IsPiece) :
    (part = .root ∧ part.pieces = ["", ""]) ∨
      (part.IsSegment ∧ part.text ≠ "" ∧ part.pieces = [part.text]) := by
  rcases h with rfl | h
  · exact .inl ⟨rfl, rfl⟩
  · refine .inr ⟨h, h.ne_empty, ?_⟩
    cases part with
    | root => exact absurd h.no_slash (by decide)
    | _ => rfl

theorem Part.IsPiece.segments {part : Part} (h : part.IsPiece) :
    (mk part.text).segments = part.pieces := by
  obtain ⟨rfl, -⟩ | ⟨hsegment, -, hpieces⟩ := h.exists_pieces
  · decide
  · rw [segments_of_no_slash hsegment.no_slash, hpieces]

theorem segments_texts {parts : List Part} (h : ∀ part ∈ parts, part.IsPiece)
    (hne : parts ≠ []) :
    (mk ("/".intercalate (parts.map Part.text))).segments = parts.flatMap Part.pieces := by
  induction parts with
  | nil => exact absurd rfl hne
  | cons part parts ih =>
    obtain ⟨hpart, hparts⟩ := List.forall_mem_cons.mp h
    cases parts with
    | nil =>
      rw [List.map_singleton, String.intercalate_singleton, hpart.segments]
      simp
    | cons next parts =>
      rw [List.map_cons, List.map_cons, String.intercalate_cons_cons, segments_slash,
        hpart.segments, ← List.map_cons, ih hparts (List.cons_ne_nil _ _)]
      rfl

theorem Part.IsSegment.text_injective {part other : Part} (h : part.IsSegment)
    (ho : other.IsSegment) (heq : part.text = other.text) : part = other := by
  have hpart := h.ofSegment?
  rw [heq, ho.ofSegment?] at hpart
  exact (Option.some.inj hpart).symm

theorem pieces_injective {parts others : List Part} (h : ∀ part ∈ parts, part.IsPiece)
    (ho : ∀ part ∈ others, part.IsPiece)
    (heq : parts.flatMap Part.pieces = others.flatMap Part.pieces) : parts = others := by
  induction parts generalizing others with
  | nil =>
    cases others with
    | nil => rfl
    | cons other others =>
      obtain ⟨-, hp⟩ | ⟨-, -, hp⟩ := (ho other List.mem_cons_self).exists_pieces <;>
        rw [List.flatMap_cons, hp] at heq <;> cases heq
  | cons part parts ih =>
    obtain ⟨hpart, hparts⟩ := List.forall_mem_cons.mp h
    cases others with
    | nil =>
      obtain ⟨-, hp⟩ | ⟨-, -, hp⟩ := hpart.exists_pieces <;>
        rw [List.flatMap_cons, hp] at heq <;> cases heq
    | cons other others =>
      obtain ⟨hother, hothers⟩ := List.forall_mem_cons.mp ho
      rw [List.flatMap_cons, List.flatMap_cons] at heq
      obtain ⟨rfl, hp⟩ | ⟨hseg, hne, hp⟩ := hpart.exists_pieces <;>
        obtain ⟨rfl, hq⟩ | ⟨hseg', hne', hq⟩ := hother.exists_pieces <;>
        simp only [hp, hq] at heq
      · rw [ih hparts hothers (List.append_cancel_left heq)]
      · exact absurd (List.cons.inj heq).1.symm hne'
      · exact absurd (List.cons.inj heq).1 hne
      · obtain ⟨htext, hrest⟩ := List.cons.inj heq
        rw [hseg.text_injective hseg' htext, ih hparts hothers hrest]

theorem texts_injective {parts others : List Part} (h : ∀ part ∈ parts, part.IsPiece)
    (ho : ∀ part ∈ others, part.IsPiece)
    (heq : "/".intercalate (parts.map Part.text) = "/".intercalate (others.map Part.text)) :
    parts = others := by
  -- only the empty list is written as nothing
  have hempty : ∀ {parts : List Part}, (∀ part ∈ parts, part.IsPiece) →
      "/".intercalate (parts.map Part.text) = "" → parts = [] := by
    intro parts h heq
    by_contra hne
    have hsegments := segments_texts h hne
    obtain ⟨part, rest, rfl⟩ := List.exists_cons_of_ne_nil hne
    rw [heq, List.flatMap_cons] at hsegments
    have hone : (mk "").segments = [""] := by decide
    rw [hone] at hsegments
    obtain ⟨-, hp⟩ | ⟨-, hne, hp⟩ := (h part List.mem_cons_self).exists_pieces <;>
      rw [hp] at hsegments
    · cases hsegments
    · exact hne (List.cons.inj hsegments).1.symm
  by_cases hne : parts = []
  · subst hne
    exact (hempty ho heq.symm).symm
  by_cases hne' : others = []
  · subst hne'
    exact hempty h heq
  apply pieces_injective h ho
  rw [← segments_texts h hne, heq, segments_texts ho hne']

theorem isPiece_away (h : ∀ part ∈ second, part.IsPiece) :
    ∀ part ∈ away first second, part.IsPiece := by
  obtain ⟨common, -, hsecond, -⟩ := exists_dropCommon first second
  refine List.forall_mem_append.mpr ⟨fun part hpart => ?_, fun part hpart => h part ?_⟩
  · rw [List.eq_of_mem_replicate hpart]
    exact .inr Part.isSegment_up
  · rw [hsecond]
    exact List.mem_append_right _ hpart

end Texts

section Landing

-- What is known of a path that was made absolute in a directory.
structure Landing (dir path : Path) : Prop where
  straight : Straight path.parts
  reaches : Reaches dir.parts path.parts
  pieces : ∀ part ∈ path.parts, part.IsPiece
  normal : path.normalize = path

theorem landing_ofNames (dir : Path) (h : ∀ name ∈ names, IsStep name) :
    Landing dir (ofNames names) where
  straight := .inl ⟨names, parts_ofNames h⟩
  reaches := .inl (by rw [parts_ofNames h]; rfl)
  pieces := by
    rw [parts_ofNames h]
    exact List.forall_mem_cons.mpr
      ⟨.inl rfl, fun part hpart => .inr (isSegment_of_isStep h part hpart)⟩
  normal := normalize_ofNames h

theorem parts_climb (h : ∀ name ∈ names, IsStep name) :
    (climb ups names).parts = climbParts ups names := by
  have hhere : (climb ups names).segments.head? ≠ some "." := fun hhead =>
    (isNormal_climb h).no_here (List.mem_of_head? hhead)
  rw [← steps_climb h, parts, if_neg (by rw [isAbsolute_climb h]; exact Bool.false_ne_true),
    if_neg hhere, steps]

-- Each `..` in front of a relative path is still there in its normal form.
theorem ups_le (h : path.isAbsolute = false) (hnames : ∀ name ∈ names, IsStep name)
    (hn : path.normalize = climb ups names) {lead : Nat}
    (hlead : List.replicate lead Part.up <+: path.steps) : lead ≤ ups := by
  obtain ⟨rest, hrest⟩ := hlead
  have hsteps : ∀ part ∈ rest, part ≠ .root ∧ part ≠ .here := fun part hpart =>
    mem_steps_ne (hrest ▸ List.mem_append_right _ hpart : part ∈ path.steps)
  obtain ⟨inner, ups', hle, hkept⟩ := exists_foldl_step lead hsteps
  have hparts : climbParts ups names = climbParts ups' inner.reverse := by
    have htrack := track_normalize path
    rw [hn, track_of_relative (isAbsolute_climb hnames), steps_climb hnames, kept,
      track_of_relative h, ← hrest, List.foldl_append, foldl_step_ups, hkept] at htrack
    simpa [climbParts] using htrack
  rwa [(climbParts_injective hparts).1]

theorem landing_absolutize (dir path : Path) : Landing dir (absolutize dir path) := by
  cases hd : dir.isAbsolute with
  | true =>
    obtain ⟨names, hnames, heq⟩ := exists_absolutize hd path
    exact heq ▸ landing_ofNames dir hnames
  | false =>
    cases hp : path.isAbsolute with
    | true =>
      obtain ⟨names, hnames, heq⟩ := exists_normalize hp
      rw [absolutize, if_pos hp, heq]
      exact landing_ofNames dir hnames
    | false =>
      have hjoin : (dir.join path).isAbsolute = false := (isAbsolute_join hp).trans hd
      obtain ⟨ups, names, hnames, heq⟩ := exists_normalize_climb hjoin
      rw [absolutize_eq, heq]
      refine ⟨.inr ⟨ups, names, parts_climb hnames⟩, .inr fun lead hlead => ?_, ?_,
        normalize_climb hnames⟩
      · have hsteps : List.replicate lead Part.up <+: (dir.join path).steps := by
          rw [steps_join hp]
          refine List.IsPrefix.trans ?_ (List.prefix_append _ _)
          obtain hparts | hparts := parts_of_relative hd <;> rw [hparts] at hlead
          · exact hlead
          · cases lead with
            | zero => exact List.nil_prefix
            | succ lead => cases (List.cons_prefix_cons.mp hlead).1
        have hle := ups_le hjoin hnames heq hsteps
        rw [parts_climb hnames, climbParts, ← Nat.add_sub_cancel' hle,
          ← List.replicate_append_replicate, List.append_assoc]
        exact List.prefix_append _ _
      · rw [parts_climb hnames]
        exact fun part hpart => .inr (isSegment_climbParts hnames part hpart)

theorem Landing.injective {path other : Path} (h : Landing dir path) (h' : Landing dir other)
    (heq : relativeTo dir path = relativeTo dir other) : path = other := by
  rw [relativeTo_eq, relativeTo_eq] at heq
  have hparts := away_injective h.reaches h'.reaches h.straight h'.straight
    (texts_injective (isPiece_away h.pieces) (isPiece_away h'.pieces) heq)
  rw [← h.normal, ← h'.normal, normalize, normalize, hparts]

-- No two files have one relative path, from whatever directory.
theorem relativeTo_absolutize_injective {dir path other : Path}
    (h : relativeTo dir (absolutize dir path) = relativeTo dir (absolutize dir other)) :
    absolutize dir path = absolutize dir other :=
  (landing_absolutize dir path).injective (landing_absolutize dir other) h

end Landing

end DocPipeline.Path
