import DocPipeline.Proofs.Config.Reload
import DocPipeline.Proofs.Json.Merge

namespace DocPipeline

namespace Json

variable {key : String} {R : Json → Json → Prop} {entries more : List (String × Json)}

-- What is related stays so over one value.
def Overlays (R : Json → Json → Prop) : Prop :=
  ∀ ⦃base one other : Json⦄, base.IsCanonical → R one other → R (merge base one) (merge base other)

-- The same is looked up in both, but for what is related at one key.
structure Apart (key : String) (R : Json → Json → Prop) (entries more : List (String × Json)) :
    Prop where
  held : ∃ one other, lookup key entries = some one ∧ lookup key more = some other ∧ R one other
  same : ∀ k, k ≠ key → lookup k more = lookup k entries

structure Differs (key : String) (R : Json → Json → Prop) (entries more : List (String × Json)) :
    Prop extends Apart key R entries more where
  left : Increasing entries
  right : Increasing more

theorem Apart.fieldD? (h : Apart key R entries more) {α : Type} (read? : Json → Option α)
    (default : α) {k : String} (hk : k ≠ key) :
    Json.fieldD? more k read? default = Json.fieldD? entries k read? default := by
  rw [Json.fieldD?, h.same k hk, Json.fieldD?]

namespace Differs

theorem filter_eq (h : Differs key R entries more) (keep : String → Bool)
    (hkey : keep key = false) :
    more.filter (fun entry => keep entry.1) = entries.filter fun entry => keep entry.1 := by
  refine (h.right.filter _).ext (h.left.filter _) fun k => ?_
  rw [lookup_filter, lookup_filter]
  by_cases hk : k = key
  · rw [hk, hkey, if_neg Bool.false_ne_true, if_neg Bool.false_ne_true]
  · rw [h.same k hk]

theorem erase (h : Differs key R entries more) {k : String} (hk : key ≠ k) :
    Differs key R (Json.erase k entries) (Json.erase k more) where
  left := h.left.erase _
  right := h.right.erase _
  held := by simpa only [lookup_erase, if_pos hk] using h.held
  same := by
    intro k' hk'
    rw [lookup_erase, lookup_erase, h.same k' hk']

theorem symm {R' : Json → Json → Prop} (h : Differs key R entries more)
    (hR : ∀ ⦃one other⦄, R one other → R' other one) : Differs key R' more entries where
  left := h.right
  right := h.left
  held := by
    obtain ⟨one, other, hone, hother, hheld⟩ := h.held
    exact ⟨other, one, hother, hone, hR hheld⟩
  same := fun k hk => (h.same k hk).symm

-- Over an object the entries are merged one by one; over anything else they stay as they are.
theorem merge (hR : Overlays R) (h : Differs key R entries more) {value : Json}
    (hv : value.IsCanonical) : ∃ merged merged',
    Json.merge value (.object entries) = .object merged ∧
      Json.merge value (.object more) = .object merged' ∧ Differs key R merged merged' := by
  cases hv with
  | @object base hincreasing hbase =>
    obtain ⟨one, other, hone, hother, hrel⟩ := h.held
    refine ⟨_, _, rfl, rfl, ⟨?_, fun k hk => ?_⟩, increasing_mergeEntries hincreasing,
      increasing_mergeEntries hincreasing⟩
    · rw [lookup_mergeEntries h.left.nodup, hone, lookup_mergeEntries h.right.nodup, hother]
      cases hl : lookup key base with
      | none => exact ⟨_, _, rfl, rfl, hrel⟩
      | some existing => exact ⟨_, _, rfl, rfl, hR (hbase _ (mem_of_lookup hl)) hrel⟩
    · rw [lookup_mergeEntries h.right.nodup, lookup_mergeEntries h.left.nodup, h.same k hk]
  | _ => exact ⟨_, _, rfl, rfl, h⟩

end Differs

-- What is no object replaces whatever it is merged over.
theorem overlays_of_leaf (h : ∀ ⦃one other⦄, R one other →
    one.isObject = false ∧ other.isObject = false) : Overlays R := by
  intro base one other _ hR
  obtain ⟨hone, hother⟩ := h hR
  rw [merge_of_leaf base hone, merge_of_leaf base hother]
  exact hR

end Json

namespace Config

variable {tree : Tree} {dir : Path} {key : String} {R : Json → Json → Prop}
  {entries more : List (String × Json)}

-- The walks through two such configurations go through the same parents.
theorem exists_walk_differs {chain : List Path} {visit : Visit}
    (h : Json.Differs key R entries more) (hkey : key ≠ "extends")
    (hw : Walk tree dir chain (.object entries) visit) :
    Walk tree dir chain (.object more) visit ∧ (∃ failure, visit.outcome = .error failure) ∨
    ∃ parents own own', visit = .config parents (.object own) ∧
      Walk tree dir chain (.object more) (.config parents (.object own')) ∧
      Json.Differs key R own own' ∧
      ((Visit.config parents (.object own)).problems = [] →
        (Visit.mergedOver (.object []) parents).IsCanonical) := by
  have hextends := h.same "extends" hkey.symm
  cases hw with
  | notObject hn => exact absurd rfl (hn entries)
  | alone hnone =>
    exact .inr ⟨[], entries, more, rfl, .alone (hextends.trans hnone), h,
      fun _ => plain_empty.canonical⟩
  | notListed hsome hl =>
    exact .inl ⟨.notListed (hextends.trans hsome) hl, _, rfl⟩
  | extending hsome hl hw =>
    refine .inr ⟨_, _, _, rfl, .extending (hextends.trans hsome) hl hw, h.erase hkey, ?_⟩
    intro hp
    rw [Visit.problems] at hp
    split at hp
    · cases hp
    · exact (hw.plain hp plain_empty).canonical

theorem expand_differs (tree : Tree) (dir : Path) (hc : (Json.object entries).IsCanonical)
    (hm : (Json.object more).IsCanonical) (hR : Json.Overlays R)
    (h : Json.Differs key R entries more) (hkey : key ≠ "extends") :
    (∃ failure, ∀ log, (exec (expand tree dir (.object entries)) log).1 = .error failure ∧
      (exec (expand tree dir (.object more)) log).1 = .error failure) ∨
    ∃ merged merged', Json.Differs key R merged merged' ∧
      ∀ log, (exec (expand tree dir (.object entries)) log).1 = .ok (.object merged) ∧
        (exec (expand tree dir (.object more)) log).1 = .ok (.object merged') := by
  obtain ⟨visit, hw⟩ := exists_walk (room_named tree dir (.object entries))
    (spans_named tree dir (.object entries))
  obtain ⟨hw', failure, hfailure⟩ | ⟨parents, own, own', rfl, hw', hown, hcanonical⟩ :=
    exists_walk_differs h hkey hw
  · exact .inl ⟨failure, fun log =>
      ⟨(exec_expand hc hw log).trans hfailure, (exec_expand hm hw' log).trans hfailure⟩⟩
  · have hp : (Visit.config parents (.object own')).problems =
        (Visit.config parents (.object own)).problems := rfl
    cases hproblems : (Visit.config parents (.object own)).problems with
    | cons failure rest =>
      refine .inl ⟨failure, fun log => ⟨?_, ?_⟩⟩
      · rw [exec_expand hc hw, Visit.outcome, hproblems]
      · rw [exec_expand hm hw', Visit.outcome, hp, hproblems]
    | nil =>
      obtain ⟨merged, merged', hmerged, hmerged', hdiffers⟩ :=
        hown.merge hR (hcanonical hproblems)
      refine .inr ⟨merged, merged', hdiffers, fun log => ⟨?_, ?_⟩⟩
      · rw [exec_expand hc hw, Visit.outcome, hproblems, ← hmerged]
        rfl
      · rw [exec_expand hm hw', Visit.outcome, hp, hproblems, ← hmerged']
        rfl

end Config

namespace Settings

variable {tree : Tree} {dir : Path} {key : String} {R : Json → Json → Prop}
  {entries more : List (String × Json)} {s : Settings}

theorem load_object (entries : List (String × Json)) (log : Log) :
    (exec (load tree dir (.object entries)) log).1 =
      (exec (Config.expand tree dir (.object entries)) log).1.bind ofValue := by
  rw [load, exec_bind_fst]
  cases (exec (Config.expand tree dir (.object entries)) log).1 <;> rfl

-- What is loaded is one failure, or is read from two objects that again differ at that key.
theorem load_differs (tree : Tree) (dir : Path) (hc : (Json.object entries).IsCanonical)
    (hm : (Json.object more).IsCanonical) (hR : Json.Overlays R)
    (h : Json.Differs key R entries more) (hkey : key ≠ "extends") :
    (∃ failure, ∀ log, (exec (load tree dir (.object entries)) log).1 = .error failure ∧
      (exec (load tree dir (.object more)) log).1 = .error failure) ∨
    ∃ merged merged', Json.Differs key R merged merged' ∧
      ∀ log, (exec (load tree dir (.object entries)) log).1 = ofValue (.object merged) ∧
        (exec (load tree dir (.object more)) log).1 = ofValue (.object merged') := by
  obtain ⟨failure, hfailure⟩ | ⟨merged, merged', hmerged, hok⟩ :=
    Config.expand_differs tree dir hc hm hR h hkey
  · refine .inl ⟨failure, fun log => ?_⟩
    rw [load_object, load_object, (hfailure log).1, (hfailure log).2]
    exact ⟨rfl, rfl⟩
  · refine .inr ⟨merged, merged', hmerged, fun log => ?_⟩
    rw [load_object, load_object, (hok log).1, (hok log).2]
    exact ⟨rfl, rfl⟩

-- What is read from two such objects is the same but for the fields at that key, if it is one of
-- these three.
theorem Reads.differs (h : Reads entries s) (hd : Json.Differs key R entries more)
    (hkey : key ∈ ["source", "test", "includeSource"]) {source : Option SourceSpec}
    {test : Option TestSettings} {includeSource : Bool}
    (hsource : Json.fieldD? more "source" (Json.optional? SourceSpec.ofJson?) none = some source)
    (htest : Json.fieldD? more "test" (Json.optional? TestSettings.ofJson?) none = some test)
    (hinclude : Json.fieldD? more "includeSource" Json.asBool? true = some includeSource) :
    Reads more { s with source, test, includeSource } := by
  have hne : ∀ k, k ∉ ["source", "test", "includeSource"] → k ≠ key :=
    fun k hk heq => hk (heq ▸ hkey)
  exact {
    source := hsource
    sourceFiles := (hd.fieldD? _ _ (hne _ (by decide))).trans h.sourceFiles
    destination := (hd.fieldD? _ _ (hne _ (by decide))).trans h.destination
    includes := (hd.fieldD? _ _ (hne _ (by decide))).trans h.includes
    excludes := (hd.fieldD? _ _ (hne _ (by decide))).trans h.excludes
    test := htest
    runtime := (hd.fieldD? _ _ (hne _ (by decide))).trans h.runtime
    runtimeOptions := (hd.fieldD? _ _ (hne _ (by decide))).trans h.runtimeOptions
    publisher := (hd.fieldD? _ _ (hne _ (by decide))).trans h.publisher
    publisherOptions := (hd.fieldD? _ _ (hne _ (by decide))).trans h.publisherOptions
    plugins := (hd.fieldD? _ _ (hne _ (by decide))).trans h.plugins
    package := (hd.fieldD? _ _ (hne _ (by decide))).trans h.package
    includeSource := hinclude
    emptyDestination := (hd.fieldD? _ _ (hne _ (by decide))).trans h.emptyDestination
    docCoverage := (hd.fieldD? _ _ (hne _ (by decide))).trans h.docCoverage
    fullStackTrace := (hd.fieldD? _ _ (hne _ (by decide))).trans h.fullStackTrace
    logLevel := (hd.fieldD? _ _ (hne _ (by decide))).trans h.logLevel
    title := (hd.fieldD? _ _ (hne _ (by decide))).trans h.title
    index := (hd.fieldD? _ _ (hne _ (by decide))).trans h.index
    extra := by
      have hkeys : keys.contains key = true := by
        have hall : ∀ k ∈ ["source", "test", "includeSource"], keys.contains k = true := by decide
        exact hall key hkey
      have hfilter := hd.filter_eq (fun k => !keys.contains k) (by rw [hkeys]; rfl)
      exact h.extra.trans hfilter.symm }

theorem checkShape_differs (hd : Json.Differs key R entries more)
    (hkey : key ∈ ["source", "test", "includeSource"]) :
    checkShape (.object more) = checkShape (.object entries) := by
  have hne : ∀ k, k ∉ ["source", "test", "includeSource"] → k ≠ key :=
    fun k hk heq => hk (heq ▸ hkey)
  simp only [checkShape, List.forM_eq_forM, List.forM_cons, List.forM_nil, Json.get?,
    hd.same "runtime" (hne _ (by decide)), hd.same "publisher" (hne _ (by decide))]
  rfl

section Map

variable {value value' : Json} {f g : Settings → Settings}

-- If what is read from either object gives what is read from the other, both are read or neither.
theorem ofJson?_map (hf : ∀ s, Reads entries s → Reads more (f s))
    (hg : ∀ s, Reads more s → Reads entries (g s)) :
    ofJson? (.object more) = (ofJson? (.object entries)).map f := by
  cases hread : ofJson? (.object entries) with
  | some s => exact (hf s (reads_of_ofJson? hread)).ofJson?_eq
  | none =>
    rw [Option.map_none, Option.eq_none_iff_forall_ne_some]
    intro s hs
    cases hread.symm.trans (hg s (reads_of_ofJson? hs)).ofJson?_eq

theorem ofValue_of_shape (h : checkShape value = .ok ()) (hread : ofJson? value = some s) :
    ofValue value = s.validate.map fun _ => s := by
  simp only [ofValue, h, hread]
  change (s.validate >>= fun _ => _) = _
  cases s.validate <;> rfl

theorem checkShape_of_ofValue (h : ofValue value = .ok s) : checkShape value = .ok () := by
  obtain ⟨_, hshape, _⟩ := except_bind_eq_ok h
  exact hshape

-- Values of one shape, read as settings that pass the checks alike.
theorem ofValue_map (hshape : checkShape value' = checkShape value)
    (hread : ofJson? value' = (ofJson? value).map f)
    (hvalid : ∀ s, checkShape value = .ok () → ofJson? value = some s →
      (f s).validate = s.validate) : ofValue value' = (ofValue value).map f := by
  cases hcheck : checkShape value with
  | error failure =>
    simp only [ofValue, hshape, hcheck]
    rfl
  | ok _ =>
    cases hfound : ofJson? value with
    | none =>
      rw [hfound] at hread
      simp only [ofValue, hshape, hcheck, hread, hfound]
      rfl
    | some s =>
      rw [hfound] at hread
      rw [ofValue_of_shape (hshape.trans hcheck) hread, ofValue_of_shape hcheck hfound,
        hvalid s hcheck hfound]
      cases s.validate <;> rfl

end Map

end Settings

end DocPipeline
