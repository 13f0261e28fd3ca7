import DocPipeline.Proofs.Glob.Literal
import DocPipeline.Proofs.Tree.Below

namespace DocPipeline.Glob

open DocPipeline.Path (ofNames IsStep)
open DocPipeline.Tree (Project Same)

-- A path of names that are read as themselves in a pattern.
def Literal (names : List String) : Prop := ∀ name ∈ names, ∀ c ∈ name.toList, IsPlain c

instance (names : List String) : Decidable (Literal names) :=
  @List.decidableBAll String (fun name => ∀ c ∈ name.toList, IsPlain c)
    (fun name => List.decidableBAll IsPlain name.toList) names

def literals (names : List String) : List (List Token) :=
  names.map fun name => name.toList.map .char

section Parse

variable {dir names : List String}

-- The segments of a pattern below any directory.
def parseBelow? (names : List String) : Option (List (List Token)) := do
  let text := ("/".intercalate names).toList
  let _ ← (readTokens (text.length + 1) 0 (some '/') text).toOption
  (names.mapM fun name => tokens name.toList).toOption

theorem parseBelow?_eq_some {segments : List (List Token)}
    (h : parseBelow? names = some segments) :
    (names.mapM fun name => tokens name.toList) = .ok segments := by
  obtain ⟨_, -, h⟩ := Option.bind_eq_some_iff.mp h
  cases hmap : names.mapM fun name => tokens name.toList <;> rw [hmap] at h <;> cases h
  rfl

theorem ne_nil_of_mapM {segments : List (List Token)}
    (h : (names.mapM fun name => tokens name.toList) = .ok segments) (hne : names ≠ []) :
    segments ≠ [] := by
  cases names with
  | nil => exact absurd rfl hne
  | cons name names =>
    rw [List.mapM_cons] at h
    obtain ⟨first, -, h⟩ := except_bind_eq_ok h
    obtain ⟨others, -, h⟩ := except_bind_eq_ok h
    cases h
    exact List.cons_ne_nil first others

theorem ne_nil_of_parseBelow? {segments : List (List Token)}
    (h : parseBelow? names = some segments) (hne : names ≠ []) : segments ≠ [] :=
  ne_nil_of_mapM (parseBelow?_eq_some h) hne

theorem mapM_literal (h : Literal dir) :
    (dir.mapM fun name => tokens name.toList) = .ok (literals dir) := by
  induction dir with
  | nil => rfl
  | cons name dir ih =>
    obtain ⟨hname, hdir⟩ := List.forall_mem_cons.mp h
    rw [List.mapM_cons, tokens_plain hname, ih hdir]
    rfl

-- Before the names of a pattern there is the path of the directory, with a slash at its end.
theorem exists_front (hl : Literal dir) (hne : names ≠ []) :
    ∃ front, (∀ c ∈ front, IsPlain c) ∧ front.getLast? = some '/' ∧
      (ofNames (dir ++ names)).text.toList = front ++ ("/".intercalate names).toList := by
  by_cases hdir : dir = []
  · subst hdir
    refine ⟨['/'], List.forall_mem_singleton.mpr (by decide), rfl, ?_⟩
    simp [Path.text_ofNames]
  · refine ⟨(ofNames dir).text.toList ++ ['/'], ?_, by simp, ?_⟩
    · refine List.forall_mem_append.mpr
        ⟨fun c hc => ?_, List.forall_mem_singleton.mpr (by decide)⟩
      by_cases hslash : c = '/'
      · rw [hslash]
        decide
      · obtain ⟨name, hname, hc⟩ := (Path.mem_text_ofNames hslash dir).mp hc
        exact hl name hname c hc
    · rw [Path.text_ofNames, Path.text_ofNames, String.intercalate_append_of_ne_nil hdir hne]
      simp

theorem toOption_map {ε α β : Type} (f : α → β) (x : Except ε α) :
    (x.map f).toOption = x.toOption.map f := by
  cases x <;> rfl

theorem tokens_toOption (hl : Literal dir) (hne : names ≠ []) :
    ∃ front, (tokens (ofNames (dir ++ names)).text.toList).toOption =
      (readTokens (("/".intercalate names).toList.length + 1) 0 (some '/')
        ("/".intercalate names).toList).toOption.map (front ++ ·) := by
  obtain ⟨front, hfront, hlast, htext⟩ := exists_front hl hne
  refine ⟨front.map .char, ?_⟩
  generalize ("/".intercalate names).toList = rest at htext
  have hlength : (front ++ rest).length + 1 = rest.length + 1 + front.length := by
    rw [List.length_append]
    omega
  rw [tokens, htext, hlength, readTokens_append hfront, hlast, toOption_map, Option.some_or,
    readTokens_position _ _ 0]

-- Whether a pattern is read, and as what, is told by what follows the directory.
theorem parse_toOption (hl : Literal dir) (hd : ∀ name ∈ dir, IsStep name)
    (hn : ∀ name ∈ names, IsStep name) (hne : names ≠ []) :
    (Glob.parse (ofNames (dir ++ names))).toOption =
      (parseBelow? names).map fun segments => ⟨literals dir ++ segments⟩ := by
  obtain ⟨front, hwhole⟩ := tokens_toOption hl hne
  have hsegments : (ofNames (dir ++ names)).segments.drop 1 = dir ++ names := by
    rw [Path.segments_ofNames (List.forall_mem_append.mpr ⟨hd, hn⟩) (by simp [hne])]
    rfl
  rw [Glob.parse, hsegments, List.mapM_append, mapM_literal hl, parseBelow?]
  cases hread : readTokens (("/".intercalate names).toList.length + 1) 0 (some '/')
      ("/".intercalate names).toList <;> rw [hread] at hwhole <;>
    cases htokens : tokens (ofNames (dir ++ names)).text.toList <;> rw [htokens] at hwhole <;>
      cases hwhole
  · rfl
  · cases names.mapM fun name => tokens name.toList <;> rfl

end Parse

section Reach

variable {tree : Tree} {dir : List String} {home : Location}

-- On the way to what a path leads to, each beginning of it leads to something.
theorem exists?_of_place {front back : List String} {found : Location} {entry : Entry}
    (hsteps : ∀ name ∈ front ++ back, IsStep name) (hne : front ≠ [])
    (h : tree.place (ofNames (front ++ back)) true = .ok (.found found entry)) :
    exists? tree (ofNames front) = true := by
  have hfront := (List.forall_mem_append.mp hsteps).1
  obtain ⟨hnul, hway⟩ := Tree.place_ofNames_iff.mp h
  rw [Path.segments_ofNames hsteps (by simp [hne]), ← List.cons_append] at hway
  obtain ⟨_, _, hlead⟩ : ∃ between e,
      Tree.Way tree true Tree.maxLinks [] ("" :: front) (.found between e) := by
    by_cases hback : back = []
    · rw [hback, List.append_nil] at hway
      exact ⟨found, entry, hway⟩
    · obtain ⟨between, _, -, hlead, -⟩ := hway.split hback
      exact ⟨between, .directory, hlead⟩
  obtain ⟨between, e, hbetween⟩ := hlead.exists_unfollowed
  rw [← Path.segments_ofNames hfront hne] at hbetween
  have hplace := Tree.place_ofNames_iff.mpr
    ⟨Path.not_mem_text_front (by decide) hnul, hbetween⟩
  rw [exists?, hplace]

theorem exists?_front (hp : Project tree dir home) {front back : List String}
    (hdir : dir = front ++ back) (hne : front ≠ []) : exists? tree (ofNames front) = true := by
  subst hdir
  exact exists?_of_place hp.steps hne (Tree.place_of_find hp.found)

-- The names of a directory's path are matched by the directory and nothing else.
theorem matchesBelow_literals (hp : Project tree dir home) {segments : List (List Token)}
    (hs : segments ≠ []) {front back : List String} (hdir : dir = front ++ back) (fuel : Nat) :
    matchesBelow tree (fuel + back.length) (ofNames front) (literals back ++ segments) =
      matchesBelow tree fuel (ofNames dir) segments := by
  induction back generalizing front with
  | nil =>
    rw [hdir, List.append_nil]
    rfl
  | cons name back ih =>
    have hdir' : dir = (front ++ [name]) ++ back := by
      rw [hdir, List.append_assoc]
      rfl
    have hfront : ∀ name ∈ front, IsStep name :=
      fun name hname => hp.steps name (hdir ▸ List.mem_append_left _ hname)
    have hname : IsStep name := hp.steps name (by simp [hdir])
    have hmore : (literals back ++ segments).isEmpty = false := by simp [hs]
    have hexists := exists?_front hp hdir' (by simp)
    rw [← ih hdir', List.length_cons, ← Nat.add_assoc, literals, List.map_cons, List.cons_append,
      matchesBelow, literal?_map_char, String.ofList_toList]
    dsimp only
    rw [Path.join_name hfront hname, if_pos hexists]
    exact if_neg (by rw [← literals, hmore]; decide)

end Reach

end DocPipeline.Glob
