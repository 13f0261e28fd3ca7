import DocPipeline.Proofs.Glob.Hits

namespace DocPipeline.Glob

open DocPipeline.Path (ofNames IsStep)

variable {tree : Tree} {dir path file : Path} {segment : List Token}
variable {segments rest : List (List Token)} {name : String} {names front back : List String}

section Literals

theorem hits_literal_iff (h : literal? segment = some name) :
    Hits tree path (segment :: rest) file ↔
      exists? tree (path.join ⟨name⟩) = true ∧ Hits tree (path.join ⟨name⟩) rest file := by
  have hwild : literal? segment ≠ none := by simp [h]
  constructor
  · intro hits
    cases hits with
    | literal hliteral hexists hrest =>
      rw [h] at hliteral
      cases hliteral
      exact ⟨hexists, hrest⟩
    | special hliteral => exact absurd hliteral hwild
    | name hliteral => exact absurd hliteral hwild
    | here hdepth => exact absurd (literal?_of_isAnyDepth hdepth) hwild
    | deeper hdepth => exact absurd (literal?_of_isAnyDepth hdepth) hwild
    | last hdepth => exact absurd (literal?_of_isAnyDepth hdepth) hwild
  · rintro ⟨hexists, hrest⟩
    exact .literal h hexists hrest

-- The names of a path that leads somewhere are matched on the way there, and nothing else is.
theorem hits_literals_iff {found : Location} {entry : Entry}
    (hsteps : ∀ name ∈ front ++ back, IsStep name)
    (h : tree.place (ofNames (front ++ back)) true = .ok (.found found entry)) :
    Hits tree (ofNames front) (literals back ++ segments) file ↔
      Hits tree (ofNames (front ++ back)) segments file := by
  induction back generalizing front with
  | nil =>
    rw [List.append_nil]
    rfl
  | cons name back ih =>
    obtain ⟨hfront, hback⟩ := List.forall_mem_append.mp hsteps
    have hjoin := Path.join_name hfront (hback name List.mem_cons_self)
    rw [List.append_cons] at hsteps h ⊢
    have hexists := exists?_of_place hsteps (by simp) h
    rw [literals, List.map_cons, List.cons_append, hits_literal_iff (literal?_map_char name.toList),
      String.ofList_toList, hjoin, and_iff_right hexists]
    exact ih hsteps h

theorem Hits.eq_of_literals (hsteps : ∀ name ∈ front ++ back, IsStep name)
    (h : Hits tree (ofNames front) (literals back) file) : file = ofNames (front ++ back) := by
  induction back generalizing front with
  | nil =>
    rw [List.append_nil]
    cases h
    rfl
  | cons name back ih =>
    obtain ⟨hfront, hback⟩ := List.forall_mem_append.mp hsteps
    have hjoin := Path.join_name hfront (hback name List.mem_cons_self)
    rw [literals, List.map_cons, hits_literal_iff (literal?_map_char name.toList),
      String.ofList_toList, hjoin] at h
    rw [List.append_cons] at hsteps ⊢
    exact ih hsteps h.2

theorem parse_literal (hl : Literal names) (hn : ∀ name ∈ names, IsStep name) (hne : names ≠ []) :
    Glob.parse (ofNames names) = .ok ⟨literals names⟩ := by
  have hplain : ∀ c ∈ (ofNames names).text.toList, IsPlain c := by
    intro c hc
    by_cases hslash : c = '/'
    · rw [hslash]
      decide
    · obtain ⟨name, hname, hmem⟩ := (Path.mem_text_ofNames hslash names).mp hc
      exact hl name hname c hmem
  rw [Glob.parse, tokens_plain hplain, Path.segments_ofNames hn hne, List.drop_succ_cons,
    List.drop_zero, mapM_literal hl]
  rfl

end Literals

section Everything

-- Every name at any depth.
def everything : List (List Token) := [[.anyDepth], [.anyChars]]

theorem isMatch_anyChars (name : List Char) : isMatch [.anyChars] name = true := by
  induction name with
  | nil => simp [isMatch]
  | cons c name ih => rw [isMatch, ih, Bool.or_true]

theorem Hits.names_of_everything (hw : tree.WellFormed) (hn : ∀ name ∈ names, IsStep name)
    (h : Hits tree (ofNames names) everything file) :
    ∃ more, more ≠ [] ∧ (∀ name ∈ more, IsStep name) ∧ file = ofNames (names ++ more) := by
  generalize hpath : ofNames names = path at h
  generalize hsegments : everything = segments at h
  induction h generalizing names with
  | done => cases hsegments
  | literal hliteral =>
    cases hsegments
    cases hliteral
  | special _ _ hdot =>
    cases hsegments
    cases hdot
  | name _ hdepth =>
    cases hsegments
    cases hdepth
  | @here _ _ _ _ _ _ child _ hnext hchild _ hrest =>
    cases hsegments
    cases hnext
    cases hrest
    subst hpath
    have hstep := (isName_of_mem hw hchild).isStep
    exact ⟨[child], List.cons_ne_nil _ _, List.forall_mem_singleton.mpr hstep,
      Path.join_name hn hstep⟩
  | @deeper _ _ _ _ child _ hchild _ _ ih =>
    cases hsegments
    subst hpath
    have hstep := (isName_of_mem hw hchild).isStep
    obtain ⟨more, hne, hmore, rfl⟩ := ih
      (List.forall_mem_append.mpr ⟨hn, List.forall_mem_singleton.mpr hstep⟩)
      (Path.join_name hn hstep).symm rfl
    refine ⟨child :: more, List.cons_ne_nil _ _, List.forall_mem_cons.mpr ⟨hstep, hmore⟩, ?_⟩
    rw [List.append_assoc, List.singleton_append]
  | last _ hnext =>
    cases hsegments
    cases hnext

theorem hits_everything {found : Location} {entry : Entry} {followLast : Bool}
    (hn : ∀ name ∈ names ++ front, IsStep name) (hne : front ≠ [])
    (h : tree.place (ofNames (names ++ front)) followLast = .ok (.found found entry)) :
    Hits tree (ofNames names) everything (ofNames (names ++ front)) := by
  induction front generalizing names with
  | nil => exact absurd rfl hne
  | cons name front ih =>
    obtain ⟨hnames, hfront⟩ := List.forall_mem_append.mp hn
    have hjoin := Path.join_name hnames (hfront name List.mem_cons_self)
    obtain ⟨location, hfind, hsome⟩ := Tree.find_beginning hn h
    have hchild : name ∈ childNames tree (ofNames names) := (mem_childNames hfind).mpr hsome
    rw [List.append_cons] at hn h ⊢
    by_cases hend : front = []
    · subst hend
      rw [List.append_nil, ← hjoin]
      exact .here rfl rfl hchild (isMatch_anyChars _) (.done _)
    · obtain ⟨next, rest, rfl⟩ := List.exists_cons_of_ne_nil hend
      obtain ⟨between, hbetween, -⟩ := Tree.find_beginning hn h
      have hdir : tree.isDirectory ((ofNames names).join ⟨name⟩) = true := by
        rw [hjoin]
        exact Tree.isDirectory_iff.mpr ⟨between, hbetween⟩
      refine .deeper rfl hchild hdir ?_
      rw [hjoin]
      exact ih hn hend h

-- Below a directory everything is matched that a path of names leads to.
theorem hits_everything_iff (hw : tree.WellFormed) (hn : ∀ name ∈ names, IsStep name)
    (hfile : tree.isFile file = true) :
    Hits tree (ofNames names) everything file ↔
      ∃ more, more ≠ [] ∧ (∀ name ∈ more, IsStep name) ∧ file = ofNames (names ++ more) := by
  refine ⟨fun h => h.names_of_everything hw hn, ?_⟩
  rintro ⟨more, hne, hmore, rfl⟩
  obtain ⟨location, bytes, hfind⟩ := Tree.isFile_iff.mp hfile
  exact hits_everything (List.forall_mem_append.mpr ⟨hn, hmore⟩) hne (Tree.place_of_find hfind)

theorem parseBelow?_everything : parseBelow? ["**", "*"] = some everything := by
  decide

end Everything

end DocPipeline.Glob
