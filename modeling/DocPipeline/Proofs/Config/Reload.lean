import DocPipeline.Config.Plan
import DocPipeline.Proofs.Config.Extends
import DocPipeline.Proofs.Config.Form

namespace DocPipeline

namespace Config

variable {tree : Tree} {dir : Path}

-- An expanded configuration is an object that extends nothing.
theorem plain_of_expand {raw value : Json} {log : Log} (hc : raw.IsCanonical)
    (h : (exec (expand tree dir raw) log).1 = .ok value) : Plain value := by
  obtain ⟨visit, hw⟩ := exists_walk (room_named tree dir raw) (spans_named tree dir raw)
  rw [exec_expand hc hw, Visit.outcome] at h
  cases hp : visit.problems with
  | nil =>
    rw [hp] at h
    cases h
    exact hw.plain hc hp
  | cons failure rest =>
    rw [hp] at h
    cases h

-- What extends nothing is left as it is.
theorem exec_expand_alone {entries : List (String × Json)}
    (h : Json.lookup "extends" entries = none) (log : Log) :
    exec (expand tree dir (.object entries)) log = (.ok (.object entries), log) := by
  have hnames : mentions (.object entries) = [] := by
    have hget : (Json.object entries).get? "extends" = none := h
    simp [mentions, hget]
  rw [expand, hnames]
  simp only [expandFrom, expandWith, h]
  rfl

end Config

namespace Settings

open Config

variable {tree : Tree} {dir : Path} {s : Settings}

section Form

theorem isNamed_toJson (spec : CollaboratorSpec) : isNamed spec.toJson.canonical = true := by
  cases spec with
  | bare name => rfl
  | described name options =>
    have hname := Json.lookup_canonical (CollaboratorSpec.nodup_described name options) "name"
    rw [CollaboratorSpec.toJson_described, Json.canonical]
    simp only [isNamed, hname]
    rfl

theorem Sound.get?_form (h : s.Sound) (key : String) :
    s.toJson.canonical.get? key = (Json.lookup key (s.written ++ s.extra)).map Json.canonical :=
  Json.lookup_canonical h.nodup key

theorem checkShape_form (h : s.Sound) (hr : s.runtime.isSome = true) :
    checkShape s.toJson.canonical = .ok () := by
  obtain ⟨spec, hspec⟩ := Option.isSome_iff_exists.mp hr
  have hruntime : s.toJson.canonical.get? "runtime" = some spec.toJson.canonical := by
    rw [h.get?_form, h.lookup_field (by decide)]
    simp [written, Json.lookup_append, Json.lookup_entryOf, Json.lookup, hspec]
  have hpublisher : s.toJson.canonical.get? "publisher" = some s.publisher.toJson.canonical := by
    rw [h.get?_form, h.lookup_field (by decide)]
    simp [written, Json.lookup_append, Json.lookup_entryOf, Json.lookup]
  simp only [checkShape, List.forM_eq_forM, List.forM_cons, List.forM_nil, hruntime, hpublisher,
    Option.all_some, isNamed_toJson]
  rfl

theorem runtime_of_validate (h : s.validate = .ok ()) : s.runtime.isSome = true := by
  cases hr : s.runtime with
  | none =>
    simp only [validate, hr] at h
    cases h
  | some spec => rfl

theorem ofValue_form (h : s.Sound) (hv : s.validate = .ok ()) :
    ofValue s.toJson.canonical = .ok s := by
  simp only [ofValue, checkShape_form h (runtime_of_validate hv), ofJson?_toJson h]
  change (s.validate >>= fun _ => Except.ok s) = _
  rw [hv]
  rfl

-- Sound settings that pass the checks, and extend nothing, load as themselves.
theorem exec_load_form (h : s.Sound) (hv : s.validate = .ok ())
    (he : Json.lookup "extends" s.extra = none) (log : Log) :
    exec (load tree dir s.toJson.canonical) log = (.ok s, log) := by
  have hextends : Json.lookup "extends" (s.written ++ s.extra) = none := by
    rw [Json.lookup_append, s.lookup_written_eq_none (by decide), he, Option.none_or]
  have hform : Json.lookup "extends"
      (Json.sortEntries (Json.canonicalEntries (s.written ++ s.extra))) = none := by
    rw [Json.lookup_canonical h.nodup, hextends, Option.map_none]
  have hvalue := ofValue_form h hv
  rw [toJson_eq, Json.canonical] at hvalue ⊢
  rw [load, exec_bind_of_ok (exec_expand_alone hform log), hvalue]
  rfl

end Form

section Read

variable {value : Json}

theorem ofValue_eq_ok (h : ofValue value = .ok s) :
    ofJson? value = some s ∧ s.validate = .ok () := by
  cases hread : ofJson? value with
  | none =>
    simp only [ofValue, hread] at h
    cases hshape : checkShape value <;> rw [hshape] at h <;> cases h
  | some found =>
    simp only [ofValue, hread] at h
    obtain ⟨_, _, hrest⟩ := except_bind_eq_ok h
    obtain ⟨_, hvalid, hsome⟩ := except_bind_eq_ok (x := found.validate) hrest
    cases hsome
    exact ⟨rfl, hvalid⟩

theorem load_eq_ok {raw : Json} {log : Log} (h : (exec (load tree dir raw) log).1 = .ok s) :
    ∃ value, (exec (expand tree dir raw) log).1 = .ok value ∧ ofJson? value = some s ∧
      s.validate = .ok () := by
  unfold load at h
  split at h
  · rw [exec_bind_fst] at h
    split at h
    · next value hvalue => exact ⟨value, hvalue, ofValue_eq_ok h⟩
    · cases h
  · cases h

theorem validate_of_plan {result : Plan × RunState} (h : s.plan dir = .ok result) :
    s.validate = .ok () := by
  obtain ⟨_, hvalid, _⟩ := except_bind_eq_ok h
  exact hvalid

-- What was read from an object that extends nothing, and passes the checks, loads as itself.
theorem exec_load_of_ofJson? (hp : Plain value) (h : ofJson? value = some s)
    (hv : s.validate = .ok ()) (log : Log) :
    exec (load tree dir s.toJson.canonical) log = (.ok s, log) := by
  refine exec_load_form (sound_of_ofJson? hp.canonical h) hv ?_ log
  obtain ⟨entries, rfl, hextends⟩ := hp.keys
  rw [(reads_of_ofJson? h).extra, Json.lookup_filter (fun key => !keys.contains key), hextends, ite_self]

end Read

theorem plain_of_ofJson? {value : Json} (hc : value.IsCanonical) (h : ofJson? value = some s)
    (he : value.get? "extends" = none) : Plain value := by
  refine ⟨hc, ?_⟩
  cases value with
  | object entries => exact ⟨entries, rfl, he⟩
  | _ => cases h

-- Whatever was loaded, its JSON form loads as the same settings again, without a look at any file.
-- So do settings that were read from an edited form, whatever the edits, if a plan can be made of
-- them and they did not make the form extend anything.
theorem load_of_form {tree : Tree} {dir : Path} {raw : Json} {s : Settings} {log : Log}
    (hraw : raw.IsCanonical) (h : (exec (load tree dir raw) log).1 = .ok s) :
    (∀ (again : Tree) (dir : Path) (log : Log),
      exec (load again dir s.toJson.canonical) log = (.ok s, log)) ∧
    ∀ (edited : Json) (s' : Settings), edited.IsCanonical → edited.get? "extends" = none →
      ofJson? edited = some s' → ∀ (dir : Path) (result : Plan × RunState),
      s'.plan dir = .ok result → ∀ (again : Tree) (log : Log),
        exec (load again dir s'.toJson.canonical) log = (.ok s', log) := by
  obtain ⟨value, hvalue, hread, hvalid⟩ := load_eq_ok h
  refine ⟨fun again dir log => ?_, fun edited s' hc he hedited dir result hplan again log => ?_⟩
  · exact exec_load_of_ofJson? (plain_of_expand hraw hvalue) hread hvalid log
  · exact exec_load_of_ofJson? (plain_of_ofJson? hc hedited he) hedited (validate_of_plan hplan) log

def themed : Json := Json.canonical (.object [("extends", .strings ["a.json", "b.json"]),
  ("runtime", .string "r"), ("theme", .null)])

-- The form with a source put in and the patterns taken out.
def sourced : Json := Json.canonical (.object [("includes", .strings []),
  ("runtime", .string "r"), ("source", .string "./src"), ("theme", .null)])

theorem themed_reloads : ∃ s s' : Settings,
    (exec (load diamond ⟨"/p"⟩ themed) ⟨none, []⟩).1 = .ok s ∧ s.title = some "c" ∧
      (∀ again dir log, exec (load again dir s.toJson.canonical) log = (.ok s, log)) ∧
      ofJson? sourced = some s' ∧
      ∀ again log, exec (load again ⟨"/p"⟩ s'.toJson.canonical) log = (.ok s', log) := by
  have hraw : themed.IsCanonical := Json.isCanonical_canonical _
  have hedited : sourced.IsCanonical := Json.isCanonical_canonical _
  have htitle : (exec (load diamond ⟨"/p"⟩ themed) ⟨none, []⟩).1.toOption.map Settings.title =
      some (some "c") := by
    decide +kernel
  have hread : ofJson? sourced = some
      { source := some (.one "./src"), includes := [], runtime := some (.bare "r"),
        extra := [("theme", .null)] } := rfl
  cases hload : (exec (load diamond ⟨"/p"⟩ themed) ⟨none, []⟩).1 with
  | error failure =>
    rw [hload] at htitle
    cases htitle
  | ok s =>
    rw [hload] at htitle
    obtain ⟨hsame, hedits⟩ := load_of_form hraw hload
    exact ⟨s, _, rfl, Option.some.inj htitle, hsame, hread,
      hedits sourced _ hedited rfl hread ⟨"/p"⟩ _ rfl⟩

end Settings

end DocPipeline
