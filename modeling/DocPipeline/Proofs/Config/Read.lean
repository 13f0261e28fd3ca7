import DocPipeline.Config.Extends
import DocPipeline.Proofs.Json.Canonical
import DocPipeline.Proofs.Tree.Follow

namespace DocPipeline

namespace Json

theorem isCanonical_of_parseCommented? {text : String} {value : Json}
    (h : parseCommented? text = some value) : value.IsCanonical := by
  obtain ⟨read, _, rfl⟩ := Option.map_eq_some_iff.mp h
  exact isCanonical_canonical read

end Json

namespace Yaml

section Gives

variable {α β : Type} {P : α → Prop} {R : β → Prop}

-- Whatever is left to be followed, what is given has the property.
def Gives (m : StateT Nat Option α) (P : α → Prop) : Prop :=
  ∀ left a left', m.run left = some (a, left') → P a

theorem gives_pure {a : α} (h : P a) : Gives (pure a) P := by
  intro left _ left' hr
  cases hr
  exact h

theorem gives_failure : Gives (failure : StateT Nat Option α) P := fun _ _ _ hr => nomatch hr

theorem gives_trivial (m : StateT Nat Option α) : Gives m fun _ => True := fun _ _ _ _ => trivial

theorem gives_lift {found : Option α} (h : ∀ a, found = some a → P a) :
    Gives (StateT.lift found : StateT Nat Option α) P := by
  intro left a left' hr
  cases hfound : found with
  | none =>
    rw [hfound] at hr
    cases hr
  | some b =>
    rw [hfound] at hr
    cases hr
    exact h a hfound

theorem gives_bind {m : StateT Nat Option α} {f : α → StateT Nat Option β} (hm : Gives m P)
    (hf : ∀ a, P a → Gives (f a) R) : Gives (m >>= f) R := by
  intro left b left' hr
  rw [StateT.run_bind, Option.bind_eq_bind, Option.bind_eq_some_iff] at hr
  obtain ⟨⟨a, between⟩, hrun, hr⟩ := hr
  exact hf a (hm left a between hrun) between b left' hr

theorem gives_failure_bind (f : α → StateT Nat Option β) : Gives (failure >>= f) R :=
  gives_bind (P := fun _ => False) gives_failure fun _ h => h.elim

theorem gives_mapM {f : α → StateT Nat Option β} (hf : ∀ a, Gives (f a) R) (items : List α) :
    Gives (items.mapM f) fun results => ∀ b ∈ results, R b := by
  induction items with
  | nil => exact gives_pure nofun
  | cons item rest ih =>
    rw [List.mapM_cons]
    refine gives_bind (hf item) fun b hb => ?_
    exact gives_bind ih fun results hresults =>
      gives_pure (List.forall_mem_cons.mpr ⟨hb, hresults⟩)

end Gives

theorem isCanonical_of_float? {text : String} {value : Json} (h : float? text = some value) :
    value.IsCanonical := by
  unfold float? at h
  split at h
  · cases h
    exact .null
  · extract_lets body at h
    split at h
    · cases h
    · obtain ⟨x, _, rfl⟩ := Option.map_eq_some_iff.mp h
      exact .number _

theorem isCanonical_of_integerValue? {text : String} {value : Json}
    (h : integerValue? text = some (some value)) : value.IsCanonical := by
  unfold integerValue? at h
  split at h
  · cases h
  · split at h <;> cases h
    exact .number _

theorem isCanonical_of_plainValue? {text : String} {value : Json}
    (h : plainValue? text = some value) : value.IsCanonical := by
  unfold plainValue? at h
  split at h
  · cases h
    exact .null
  · split at h
    · cases h
      exact .bool _
    · split at h
      next hinteger =>
        subst h
        exact isCanonical_of_integerValue? hinteger
      next =>
        split at h
        · cases h
          exact .string _
        · cases h
          cases hf : float? text with
          | none => exact .string _
          | some value => exact isCanonical_of_float? hf

theorem isCanonical_of_scalarValue? {text : String} {plain : Bool} {tag : Option String}
    {value : Json} (h : scalarValue? text plain tag = some value) : value.IsCanonical := by
  unfold scalarValue? at h
  split at h
  · split at h
    · exact isCanonical_of_plainValue? h
    · cases h
      exact .string _
  · split at h
    · cases h
    · split at h
      · obtain ⟨b, _, rfl⟩ := Option.map_eq_some_iff.mp h
        exact .bool b
      · split at h
        · exact isCanonical_of_integerValue? (Option.join_eq_some_iff.mp h)
        · split at h
          · exact isCanonical_of_float? h
          · split at h
            · split at h <;> cases h
              exact .null
            · cases h
              exact .string _

-- The entries of mappings are put in order, however deep they are.
theorem Document.gives_value? (d : Document) (depth : Nat) (node : Node) :
    Gives (d.value? depth node) Json.IsCanonical := by
  induction depth using Nat.strong_induction_on generalizing node with
  | _ depth ih =>
    rw [value?]
    refine gives_bind (gives_trivial _) fun found _ => ?_
    cases found with
    | scalar text plain tag => exact gives_lift fun _ h => isCanonical_of_scalarValue? h
    | sequence tag items =>
      dsimp only
      split
      · exact gives_failure_bind _
      · cases depth with
        | zero => exact gives_failure
        | succ depth =>
          exact gives_bind (gives_mapM (ih depth depth.lt_succ_self) items) fun values h =>
            gives_pure (.array h)
    | mapping tag entries =>
      dsimp only
      split
      · exact gives_failure_bind _
      · cases depth with
        | zero => exact gives_failure
        | succ depth =>
          have hentry : ∀ entry : Node × Node, Gives (do
              let key ← d.keyText? entry.1
              return (key, ← d.value? depth entry.2)) fun entry => entry.2.IsCanonical :=
            fun entry => gives_bind (gives_trivial _) fun key _ =>
              gives_bind (ih depth depth.lt_succ_self entry.2) fun value h => gives_pure h
          refine gives_bind (gives_mapM hentry entries) fun values h => gives_pure ?_
          exact .object (Json.increasing_sortEntries values) fun entry hmem =>
            h entry (Json.mem_sortEntries hmem)
    | «alias» number => exact gives_failure

theorem isCanonical_of_parse? {text : String} {value : Json} (h : parse? text = some value) :
    value.IsCanonical := by
  obtain ⟨d, _, h⟩ := Option.bind_eq_some_iff.mp h
  split at h
  · cases h
    exact .null
  next node _ =>
    obtain ⟨⟨found, left⟩, hrun, rfl⟩ := Option.map_eq_some_iff.mp h
    exact d.gives_value? maxDepth node _ _ left hrun

end Yaml

namespace Tree

variable {tree : Tree} {location : Location} {bytes : ByteArray}

theorem mem_of_find_file {path : Path} {base : Option Location}
    (h : tree.find path base = .ok (location, .file bytes)) :
    ∃ e ∈ tree.entries, e.2 = .file bytes := by
  have hget := place_file (place_of_find h)
  have hne : location ≠ [] := by
    rintro rfl
    cases hget
  exact ⟨_, mem_of_get? hget hne, rfl⟩

theorem readText_eq_ok {path : Path} {text : String} (h : tree.readText path = .ok text) :
    ∃ bytes, (∃ e ∈ tree.entries, e.2 = .file bytes) ∧ String.fromUTF8? bytes = some text := by
  unfold readText at h
  split at h
  next bytes hfind =>
    split at h
    next htext =>
      cases h
      exact ⟨bytes, mem_of_find_file hfind, htext⟩
    next => cases h
  next => cases h
  next => cases h

end Tree

namespace Config

theorem some_of_required {found : Option Json} {failure : Failure} {value : Json}
    (h : (match found with
      | some value => Except.ok value
      | none => Except.error failure) = .ok value) : found = some value := by
  cases found with
  | none => cases h
  | some value => cases h; rfl

-- A file is read as JSON or as YAML.
theorem readFile_eq_ok {tree : Tree} {path : Path} {value : Json}
    (h : readFile tree path = .ok value) : ∃ text, tree.readText path = .ok text ∧
      (Json.parseCommented? text = some value ∨ Yaml.parse? text = some value) := by
  unfold readFile at h
  split at h
  · cases h
  next text htext =>
    refine ⟨text, htext, ?_⟩
    unfold Format.parse at h
    dsimp only at h
    split at h
    · exact .inl (some_of_required h)
    · exact .inr (some_of_required h)
    · cases h
    · have heither := some_of_required h
      cases hjson : Json.parseCommented? text with
      | some found =>
        rw [hjson] at heither
        exact .inl heither
      | none =>
        rw [hjson] at heither
        exact .inr heither

theorem isCanonical_of_readFile {tree : Tree} {path : Path} {value : Json}
    (h : readFile tree path = .ok value) : value.IsCanonical := by
  obtain ⟨text, _, hjson | hyaml⟩ := readFile_eq_ok h
  · exact Json.isCanonical_of_parseCommented? hjson
  · exact Yaml.isCanonical_of_parse? hyaml

-- The parents that a file names are among those that are counted.
theorem mentions_of_readFile {tree : Tree} {path : Path} {value : Json}
    (h : readFile tree path = .ok value) : mentions value ⊆ treeMentions tree := by
  obtain ⟨text, htext, hparsed⟩ := readFile_eq_ok h
  obtain ⟨bytes, ⟨e, he, hfile⟩, hutf8⟩ := Tree.readText_eq_ok htext
  intro name hname
  refine List.mem_flatMap.mpr ⟨e, he, ?_⟩
  rw [hfile, entryMentions, hutf8]
  refine List.mem_flatMap.mpr ⟨text, List.mem_singleton_self _, ?_⟩
  refine List.mem_flatMap.mpr ⟨value, List.mem_append.mpr ?_, hname⟩
  simpa only [Option.mem_toList] using hparsed

end Config

end DocPipeline
