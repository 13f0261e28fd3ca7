import DocPipeline.Proofs.Config.Differs

namespace DocPipeline

namespace Json

variable {key : String} {shown other : Bool} {entries more : List (String × Json)}

-- The same entries but for what is chosen at one key.
structure Choose (key : String) (shown other : Bool) (entries more : List (String × Json)) :
    Prop where
  left : Increasing entries
  right : Increasing more
  shown : lookup key entries = some (.bool shown)
  other : lookup key more = some (.bool other)
  same : ∀ k, k ≠ key → lookup k more = lookup k entries

-- Truth values, the one that is shown and the other.
def Chosen (shown other : Bool) (one two : Json) : Prop := one = bool shown ∧ two = bool other

theorem overlays_chosen (shown other : Bool) : Overlays (Chosen shown other) := by
  apply overlays_of_leaf
  rintro _ _ ⟨rfl, rfl⟩
  exact ⟨rfl, rfl⟩

theorem choose_iff : Choose key shown other entries more ↔
    Differs key (Chosen shown other) entries more := by
  constructor
  · exact fun h => ⟨⟨⟨_, _, h.shown, h.other, rfl, rfl⟩, h.same⟩, h.left, h.right⟩
  · rintro ⟨⟨⟨_, _, hshown, hother, rfl, rfl⟩, hsame⟩, hleft, hright⟩
    exact ⟨hleft, hright, hshown, hother, hsame⟩

theorem Choose.symm (h : Choose key shown other entries more) :
    Choose key other shown more entries :=
  ⟨h.right, h.left, h.other, h.shown, fun k hk => (h.same k hk).symm⟩

-- The same configuration, which hides source text.
def hidden : Json → Json
  | object entries => object (insert "includeSource" (bool false) entries)
  | value => value

end Json

-- The same plan, which hides source text.
def Plan.hidden (plan : Plan) : Plan := { plan with includeSource := false }

namespace Settings

variable {tree : Tree} {dir : Path} {shown other : Bool} {entries more : List (String × Json)}
  {s : Settings}

-- The same settings, which hide source text.
def hidden (s : Settings) : Settings := { s with includeSource := false }

theorem Reads.choose (h : Reads entries s)
    (hc : Json.Choose "includeSource" shown other entries more) :
    Reads more { s with includeSource := other } := by
  have hd := Json.choose_iff.mp hc
  refine h.differs hd (by decide) ((hd.fieldD? _ _ (by decide)).trans h.source)
    ((hd.fieldD? _ _ (by decide)).trans h.test) ?_
  rw [Json.fieldD?, hc.other]
  rfl

theorem ofValue_choose (hc : Json.Choose "includeSource" shown other entries more) :
    ofValue (.object more) =
      (ofValue (.object entries)).map fun s => { s with includeSource := other } :=
  ofValue_map (checkShape_differs (Json.choose_iff.mp hc) (by decide))
    (ofJson?_map (fun _ h => h.choose hc) fun _ h => h.choose hc.symm) fun _ _ _ => rfl

theorem choose_hidden (hincreasing : Json.Increasing entries)
    (hshown : Json.lookup "includeSource" entries = some (.bool shown)) :
    Json.Choose "includeSource" shown false entries
      (Json.insert "includeSource" (.bool false) entries) := by
  refine ⟨hincreasing, Json.increasing_insert hincreasing _ _, hshown, ?_, fun k hk => ?_⟩
  · rw [Json.lookup_insert, if_pos rfl]
  · rw [Json.lookup_insert, if_neg (Ne.symm hk)]

-- Hidden configurations load as hidden settings, whatever they extend.
theorem load_hidden {raw : Json} (hc : raw.IsCanonical)
    (hshown : raw.get? "includeSource" = some (.bool shown)) (log log' : Log) :
    (exec (load tree dir raw.hidden) log').1 = (exec (load tree dir raw) log).1.map hidden := by
  cases hc with
  | @object entries hincreasing hvalues =>
    have hchoose := choose_hidden hincreasing hshown
    have hcanonical : (Json.object entries).hidden.IsCanonical := by
      refine .object hchoose.right fun entry hentry => ?_
      rcases Json.mem_insert hentry with rfl | hentry
      · exact .bool false
      · exact hvalues entry hentry
    obtain ⟨failure, hfailure⟩ | ⟨merged, merged', hd, hload⟩ :=
      load_differs tree dir (.object hincreasing hvalues) hcanonical
        (Json.overlays_chosen shown false) (Json.choose_iff.mp hchoose) (by decide)
    · rw [Json.hidden, (hfailure log).1, (hfailure log').2]
      rfl
    · rw [Json.hidden, (hload log).1, (hload log').2]
      exact ofValue_choose (Json.choose_iff.mpr hd)
  | _ => cases hshown

theorem plan_hidden (s : Settings) (dir : Path) : s.hidden.plan dir =
    (s.plan dir).map fun result => (result.1.hidden, result.2) := by
  have hvalid : s.hidden.validate = s.validate := rfl
  simp only [Settings.plan, hvalid]
  cases s.validate with
  | error failure => rfl
  | ok _ =>
    by_cases hsource : lacksSource s.source s.sourceFiles = true
    · simp only [hidden, hsource]
      rfl
    · cases hfilter : Filter.compile s.includes s.excludes with
      | error failure =>
        simp only [hidden, hsource, hfilter]
        rfl
      | ok filter =>
        cases htest : s.test.mapM planTest with
        | error failure =>
          simp only [hidden, hsource, hfilter, htest]
          rfl
        | ok test =>
          cases hruntime : s.runtime <;> simp only [hidden, hsource, hfilter, htest, hruntime] <;> rfl

end Settings

end DocPipeline
