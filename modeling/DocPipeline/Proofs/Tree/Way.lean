import DocPipeline.Proofs.Path.Steps
import DocPipeline.Tree.Basic

namespace DocPipeline.Tree

open DocPipeline.Path (Part)

-- Where the target of a link begins: at the root, or in the directory that has the link.
def linkStart (start : Location) (target : String) : Location :=
  if (Path.mk target).isAbsolute then [] else start

-- A way from a directory to a place, with the number of links that may still be followed. One
-- segment after the other: one that names no step stays, `..` goes up, and a name goes down into a
-- directory, ends at what is there, or goes on along the target of a link.
inductive Way (tree : Tree) (followLast : Bool) : Nat → Location → List String → Place → Prop
  | here {links start} : Way tree followLast links start [] (.found start .directory)
  | stay {links start segment segments place} (hpart : Part.ofSegment? segment = none)
      (h : Way tree followLast links start segments place) :
      Way tree followLast links start (segment :: segments) place
  | up {links start segment segments place} (hpart : Part.ofSegment? segment = some .up)
      (h : Way tree followLast links start.dropLast segments place) :
      Way tree followLast links start (segment :: segments) place
  | down {links start name segments place} (hpart : Part.ofSegment? name = some (.name name))
      (hentry : tree.get? (start ++ [name]) = some .directory)
      (h : Way tree followLast links (start ++ [name]) segments place) :
      Way tree followLast links start (name :: segments) place
  | vacant {links start name} (hpart : Part.ofSegment? name = some (.name name))
      (hentry : tree.get? (start ++ [name]) = none) :
      Way tree followLast links start [name] (.vacant (start ++ [name]))
  | file {links start name bytes} (hpart : Part.ofSegment? name = some (.name name))
      (hentry : tree.get? (start ++ [name]) = some (.file bytes)) :
      Way tree followLast links start [name] (.found (start ++ [name]) (.file bytes))
  | link {links start name target} (hpart : Part.ofSegment? name = some (.name name))
      (hentry : tree.get? (start ++ [name]) = some (.link target)) (hlast : ¬ followLast) :
      Way tree followLast links start [name] (.found (start ++ [name]) (.link target))
  | follow {links start name target segments place}
      (hpart : Part.ofSegment? name = some (.name name))
      (hentry : tree.get? (start ++ [name]) = some (.link target))
      (hlast : ¬ (segments = [] ∧ ¬ followLast))
      (h : Way tree followLast links (linkStart start target)
        ((Path.mk target).segments ++ segments) place) :
      Way tree followLast (links + 1) start (name :: segments) place

variable {tree : Tree} {followLast : Bool} {links : Nat} {start : Location}
variable {name : String} {segments : List String} {place other : Place}
variable {onLink : Location → List String → Except IoError Place}

section Follow

theorem followSegments_cons (hpart : Part.ofSegment? name = some (.name name)) :
    tree.followSegments followLast onLink start (name :: segments) =
      match tree.get? (start ++ [name]) with
      | none =>
        if segments = [] then .ok (.vacant (start ++ [name])) else .error .notFound
      | some .directory => tree.followSegments followLast onLink (start ++ [name]) segments
      | some (.file bytes) =>
        if segments = [] then .ok (.found (start ++ [name]) (.file bytes))
        else .error .notDirectory
      | some (.link target) =>
        if segments = [] ∧ ¬ followLast then .ok (.found (start ++ [name]) (.link target))
        else onLink (linkStart start target) ((Path.mk target).segments ++ segments) := by
  obtain ⟨hstay, hup⟩ := Part.ofSegment?_eq_name_iff.mp hpart
  rw [followSegments, if_neg hstay, if_neg hup]
  rfl

theorem Way.of_followSegments
    (hlink : ∀ {start name target segments place}, Part.ofSegment? name = some (.name name) →
      tree.get? (start ++ [name]) = some (.link target) → ¬ (segments = [] ∧ ¬ followLast) →
      onLink (linkStart start target) ((Path.mk target).segments ++ segments) = .ok place →
      Way tree followLast links start (name :: segments) place)
    (h : tree.followSegments followLast onLink start segments = .ok place) :
    Way tree followLast links start segments place := by
  induction segments generalizing start with
  | nil =>
    cases h
    exact .here
  | cons segment segments ih =>
    by_cases hstay : segment = "" ∨ segment = "."
    · rw [followSegments, if_pos hstay] at h
      exact .stay (Part.ofSegment?_eq_none_iff.mpr hstay) (ih h)
    by_cases hup : segment = ".."
    · rw [followSegments, if_neg hstay, if_pos hup] at h
      subst hup
      exact .up (by decide) (ih h)
    have hpart := Part.ofSegment?_eq_name_iff.mpr ⟨hstay, hup⟩
    rw [followSegments_cons hpart] at h
    split at h
    next hentry =>
      split at h
      next hend =>
        subst hend
        cases h
        exact .vacant hpart hentry
      next => cases h
    next hentry => exact .down hpart hentry (ih h)
    next hentry =>
      split at h
      next hend =>
        subst hend
        cases h
        exact .file hpart hentry
      next => cases h
    next hentry =>
      split at h
      next hlast =>
        obtain ⟨rfl, hlast⟩ := hlast
        cases h
        exact .link hpart hentry hlast
      next hlast => exact hlink hpart hentry hlast h

theorem Way.of_follow (h : tree.follow followLast links start segments = .ok place) :
    Way tree followLast links start segments place := by
  induction links generalizing start segments place with
  | zero => exact of_followSegments (fun _ _ _ hl => by cases hl) h
  | succ links ih =>
    exact of_followSegments (fun hpart hentry hlast hl => .follow hpart hentry hlast (ih hl)) h

-- With any number of links, the segments are followed one by one.
theorem exists_onLink (tree : Tree) (followLast : Bool) (links : Nat) :
    ∃ onLink, tree.follow followLast links = tree.followSegments followLast onLink := by
  cases links with
  | zero => exact ⟨_, rfl⟩
  | succ links => exact ⟨_, rfl⟩

theorem Way.follow_eq (h : Way tree followLast links start segments place) :
    tree.follow followLast links start segments = .ok place := by
  induction h with
  | @here links _ =>
    obtain ⟨onLink, hfollow⟩ := exists_onLink tree followLast links
    rw [hfollow, followSegments]
  | @stay links _ _ _ _ hpart _ ih =>
    obtain ⟨onLink, hfollow⟩ := exists_onLink tree followLast links
    rw [hfollow] at ih ⊢
    rw [followSegments, if_pos (Part.ofSegment?_eq_none_iff.mp hpart), ih]
  | @up links _ _ _ _ hpart _ ih =>
    obtain rfl := Part.text_of_ofSegment? hpart
    obtain ⟨onLink, hfollow⟩ := exists_onLink tree followLast links
    rw [hfollow] at ih ⊢
    rw [followSegments, if_neg (by decide), if_pos (by rfl), ih]
  | @down links _ _ _ _ hpart hentry _ ih =>
    obtain ⟨onLink, hfollow⟩ := exists_onLink tree followLast links
    rw [hfollow] at ih ⊢
    rw [followSegments_cons hpart, hentry]
    exact ih
  | @vacant links _ _ hpart hentry =>
    obtain ⟨onLink, hfollow⟩ := exists_onLink tree followLast links
    rw [hfollow, followSegments_cons hpart, hentry]
    exact if_pos rfl
  | @file links _ _ _ hpart hentry =>
    obtain ⟨onLink, hfollow⟩ := exists_onLink tree followLast links
    rw [hfollow, followSegments_cons hpart, hentry]
    exact if_pos rfl
  | @link links _ _ _ hpart hentry hlast =>
    obtain ⟨onLink, hfollow⟩ := exists_onLink tree followLast links
    rw [hfollow, followSegments_cons hpart, hentry]
    exact if_pos ⟨rfl, hlast⟩
  | follow hpart hentry hlast _ ih =>
    rw [Tree.follow, followSegments_cons hpart, hentry]
    exact (if_neg hlast).trans ih

-- Following a path comes to a place just where a way leads there.
theorem follow_eq_ok_iff : tree.follow followLast links start segments = .ok place ↔
    Way tree followLast links start segments place :=
  ⟨Way.of_follow, Way.follow_eq⟩

end Follow

theorem place_eq_ok_iff {path : Path} {base : Option Location} :
    tree.place path followLast base = .ok place ↔ '\x00' ∉ path.text.toList ∧
      ∃ start, start? path base = some start ∧
        Way tree followLast maxLinks start path.segments place := by
  rw [Tree.place]
  split
  next hnul => exact iff_of_false nofun fun h => h.1 (by simpa using hnul)
  next hnul =>
    have hfree : '\x00' ∉ path.text.toList := by simpa using hnul
    cases start? path base with
    | none => exact iff_of_false nofun fun h => nomatch h.2.choose_spec.1
    | some start => simp [hfree, follow_eq_ok_iff]

namespace Way

theorem unique (h : Way tree followLast links start segments place)
    (h' : Way tree followLast links start segments other) : place = other :=
  Except.ok.inj (h.follow_eq.symm.trans h'.follow_eq)

variable {location : Location} {front back more : List String}

-- What follows the path of a directory is followed from there.
theorem append (hmore : more ≠ [])
    (h : Way tree true links start segments (.found location .directory))
    (h' : ∀ links, Way tree followLast links location more place) :
    Way tree followLast links start (segments ++ more) place := by
  generalize hreached : Place.found location .directory = reached at h
  induction h with
  | here =>
    cases hreached
    exact h' _
  | stay hpart _ ih => exact .stay hpart (ih hreached)
  | up hpart _ ih => exact .up hpart (ih hreached)
  | down hpart hentry _ ih => exact .down hpart hentry (ih hreached)
  | vacant => cases hreached
  | file => cases hreached
  | link => cases hreached
  | follow hpart hentry _ _ ih =>
    rw [List.cons_append]
    refine .follow hpart hentry (fun hend => hmore (List.append_eq_nil_iff.mp hend.1).2) ?_
    rw [← List.append_assoc]
    exact ih hreached

-- Whatever is followed by more leads to a directory, and the rest goes on from there with the links
-- that are left. By induction on their number, and for each number on the segments before.
theorem split (hback : back ≠ []) (h : Way tree followLast links start (front ++ back) place) :
    ∃ between left, left ≤ links ∧
      Way tree true links start front (.found between .directory) ∧
        Way tree followLast left between back place := by
  induction links using Nat.strongRecOn generalizing start front with
  | _ links ihLinks =>
    induction front generalizing start with
    | nil => exact ⟨start, links, Nat.le_refl links, .here, h⟩
    | cons segment front ih =>
      rw [List.cons_append] at h
      have hmore : front ++ back ≠ [] := fun hnil => hback (List.append_eq_nil_iff.mp hnil).2
      generalize hrest : front ++ back = rest at h hmore
      cases h with
      | stay hpart h =>
        subst hrest
        obtain ⟨between, left, hleft, hfront, hback⟩ := ih h
        exact ⟨between, left, hleft, .stay hpart hfront, hback⟩
      | up hpart h =>
        subst hrest
        obtain ⟨between, left, hleft, hfront, hback⟩ := ih h
        exact ⟨between, left, hleft, .up hpart hfront, hback⟩
      | down hpart hentry h =>
        subst hrest
        obtain ⟨between, left, hleft, hfront, hback⟩ := ih h
        exact ⟨between, left, hleft, .down hpart hentry hfront, hback⟩
      | vacant => exact absurd rfl hmore
      | file => exact absurd rfl hmore
      | link => exact absurd rfl hmore
      | @follow links _ _ _ _ _ hpart hentry _ h =>
        subst hrest
        rw [← List.append_assoc] at h
        obtain ⟨between, left, hleft, hfront, hback⟩ := ihLinks links (Nat.lt_succ_self links) h
        have hlast : ¬ (front = [] ∧ ¬ true = true) := fun hend => hend.2 rfl
        exact ⟨between, left, Nat.le_succ_of_le hleft, .follow hpart hentry hlast hfront, hback⟩

-- Where the last link is followed to something, there is something without following it.
theorem exists_unfollowed {entry : Entry}
    (h : Way tree true links start segments (.found location entry)) :
    ∃ between e, Way tree false links start segments (.found between e) := by
  generalize hfound : Place.found location entry = reached at h
  induction h with
  | here => exact ⟨_, _, .here⟩
  | stay hpart _ ih =>
    obtain ⟨between, e, hway⟩ := ih hfound
    exact ⟨between, e, .stay hpart hway⟩
  | up hpart _ ih =>
    obtain ⟨between, e, hway⟩ := ih hfound
    exact ⟨between, e, .up hpart hway⟩
  | down hpart hentry _ ih =>
    obtain ⟨between, e, hway⟩ := ih hfound
    exact ⟨between, e, .down hpart hentry hway⟩
  | vacant => cases hfound
  | file hpart hentry => exact ⟨_, _, .file hpart hentry⟩
  | link hpart hentry => exact ⟨_, _, .link hpart hentry nofun⟩
  | @follow _ _ _ _ segments _ hpart hentry _ _ ih =>
    by_cases hend : segments = []
    · subst hend
      exact ⟨_, _, .link hpart hentry nofun⟩
    · obtain ⟨between, e, hway⟩ := ih hfound
      exact ⟨between, e, .follow hpart hentry (fun hlast => hend hlast.1) hway⟩

-- A slash at the end of the path of a directory makes no difference.
theorem of_slash (h : Way tree true links start (segments ++ [""]) (.found location .directory)) :
    Way tree true links start segments (.found location .directory) := by
  obtain ⟨between, left, -, hfront, hback⟩ := split (List.cons_ne_nil _ _) h
  cases hback with
  | stay _ h =>
    cases h
    exact hfront
  | up hpart => exact absurd hpart (by decide)
  | down hpart => exact absurd hpart (by decide)
  | follow hpart => exact absurd hpart (by decide)

end Way

end DocPipeline.Tree
