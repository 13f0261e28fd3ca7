import DocPipeline.Failure.Report
import Mathlib.Logic.Relation

namespace DocPipeline

namespace Failure

-- The failure and everything below it, the outermost first.
def causes : Failure → List Failure
  | f@(parse _ cause) => f :: cause.causes
  | f@(within _ cause) => f :: cause.causes
  | f => [f]

-- The failure is a context around another one.
def isContext : Failure → Bool
  | within _ _ => true
  | _ => false

-- The collaborator that the outermost layer names.
def ownBlame? : Failure → Option Blame
  | within (.blame b) _ => some b
  | _ => none

theorem chain_eq_map_causes (failure : Failure) :
    failure.chain = failure.causes.map message := by
  induction failure with
  | parse path cause ih => rw [chain, ih, causes, List.map_cons]
  | within context cause ih => rw [chain, ih, causes, List.map_cons]
  | _ => rfl

theorem causes_of_cause? {above below : Failure} (h : above.cause? = some below) :
    above.causes = above :: below.causes := by
  cases above with
  | parse path cause => cases h; rfl
  | within context cause => cases h; rfl
  | _ => cases h

-- The causes are what is reached by going from cause to cause.
theorem mem_causes_iff {failure cause : Failure} :
    cause ∈ failure.causes ↔
      Relation.ReflTransGen (fun above below => above.cause? = some below) failure cause := by
  constructor
  · intro h
    induction failure with
    | parse path below ih =>
      rcases List.mem_cons.mp h with rfl | h
      · exact .refl
      · exact .head rfl (ih h)
    | within context below ih =>
      rcases List.mem_cons.mp h with rfl | h
      · exact .refl
      · exact .head rfl (ih h)
    | _ =>
      obtain rfl := List.mem_singleton.mp h
      exact .refl
  · intro h
    induction h using Relation.ReflTransGen.head_induction_on with
    | refl => cases cause <;> simp [causes]
    | head hcause _ ih =>
      rw [causes_of_cause? hcause]
      exact List.mem_cons_of_mem _ ih

-- An invalid configuration is somewhere among the causes.
def OfConfig (failure : Failure) : Prop := ∃ message, invalidConfig message ∈ failure.causes

-- An invalid configuration is itself what made a file fail to parse.
def Buried (failure : Failure) : Prop :=
  ∃ path message, parse path (invalidConfig message) ∈ failure.causes

section Configuration

theorem isInvalidConfig_iff {failure : Failure} :
    failure.isInvalidConfig = true ↔ ∃ message, failure = invalidConfig message := by
  cases failure <;> simp [isInvalidConfig]

theorem any_isInvalidConfig_iff (failure : Failure) :
    failure.causes.any isInvalidConfig = true ↔ failure.OfConfig := by
  simp only [List.any_eq_true, isInvalidConfig_iff, OfConfig]
  constructor
  · rintro ⟨_, h, message, rfl⟩
    exact ⟨message, h⟩
  · rintro ⟨message, h⟩
    exact ⟨_, h, message, rfl⟩

theorem concernsConfig_within (context : Context) (cause : Failure) :
    (within context cause).concernsConfig = cause.concernsConfig := rfl

-- The outermost layer of what made a file fail to parse is not seen. Below a layer that has causes
-- of its own nothing is lost by that.
theorem concernsConfig_parse (path : String) (cause : Failure) :
    (parse path cause).concernsConfig = (!cause.isInvalidConfig && cause.concernsConfig) := by
  cases cause <;> rfl

theorem ofConfig_within (context : Context) (cause : Failure) :
    (within context cause).OfConfig ↔ cause.OfConfig := by
  simp [OfConfig, causes]

theorem ofConfig_parse (path : String) (cause : Failure) :
    (parse path cause).OfConfig ↔ cause.OfConfig := by
  simp [OfConfig, causes]

theorem buried_within (context : Context) (cause : Failure) :
    (within context cause).Buried ↔ cause.Buried := by
  simp [Buried, causes]

theorem buried_parse (path : String) (cause : Failure) :
    (parse path cause).Buried ↔ (∃ message, cause = invalidConfig message) ∨ cause.Buried := by
  simp only [Buried, causes, List.mem_cons, parse.injEq]
  constructor
  · rintro ⟨p, message, ⟨rfl, rfl⟩ | h⟩
    · exact .inl ⟨message, rfl⟩
    · exact .inr ⟨p, message, h⟩
  · rintro (⟨message, rfl⟩ | ⟨p, message, h⟩)
    · exact ⟨path, message, .inl ⟨rfl, rfl⟩⟩
    · exact ⟨p, message, .inr h⟩

theorem Buried.ofConfig {failure : Failure} (h : failure.Buried) : failure.OfConfig := by
  induction failure with
  | parse path cause ih =>
    rw [ofConfig_parse]
    rcases (buried_parse path cause).mp h with ⟨message, rfl⟩ | h
    · exact ⟨message, List.mem_singleton_self _⟩
    · exact ih h
  | within context cause ih =>
    rw [ofConfig_within]
    exact ih ((buried_within context cause).mp h)
  | _ =>
    obtain ⟨path, message, h⟩ := h
    cases List.mem_singleton.mp h

theorem concernsConfig_iff (failure : Failure) :
    failure.concernsConfig = true ↔ failure.OfConfig ∧ ¬failure.Buried := by
  induction failure with
  | parse path cause ih =>
    rw [concernsConfig_parse, ofConfig_parse, buried_parse, ← isInvalidConfig_iff, not_or,
      Bool.and_eq_true, Bool.not_eq_true', Bool.not_eq_true, ih]
    exact and_left_comm
  | within context cause ih => rw [concernsConfig_within, ofConfig_within, buried_within, ih]
  | invalidConfig message =>
    refine ⟨fun _ => ⟨⟨message, List.mem_singleton_self _⟩, ?_⟩, fun _ => rfl⟩
    rintro ⟨path, other, h⟩
    cases List.mem_singleton.mp h
  | _ =>
    refine ⟨nofun, fun h => ?_⟩
    obtain ⟨⟨message, h⟩, _⟩ := h
    cases List.mem_singleton.mp h

end Configuration

-- The collaborators are looked for among the contexts around the failure only.
theorem blame?_eq_findSome? (failure : Failure) :
    failure.blame? = (failure.causes.takeWhile isContext).findSome? ownBlame? := by
  induction failure with
  | within context cause ih =>
    cases context with
    | note text => exact ih
    | blame b => rfl
  | _ => rfl

theorem findSome?_causes_of_blame? {failure : Failure} {blame : Blame}
    (h : failure.blame? = some blame) : failure.causes.findSome? ownBlame? = some blame := by
  rw [blame?_eq_findSome?] at h
  rw [← List.takeWhile_append_dropWhile (p := isContext) (l := failure.causes),
    List.findSome?_append, h, Option.some_or]

end Failure

-- The names of the collaborators that come with the program.
theorem Blame.isBuiltin_iff (blame : Blame) :
    blame.isBuiltin = true ↔ ∃ rest, blame.collaborator = "tjsdoc" ++ rest := by
  rw [isBuiltin, List.isPrefixOf_iff_prefix]
  constructor
  · rintro ⟨rest, h⟩
    refine ⟨String.ofList rest, String.toList_inj.mp ?_⟩
    simpa [String.toList_append] using h.symm
  · rintro ⟨rest, h⟩
    exact ⟨rest.toList, by rw [h, String.toList_append]⟩

namespace Reporter

open Failure

-- The verdict on the whole chain of causes: an invalid configuration anywhere in it comes first,
-- and then the outermost collaborator.
def dueVerdict (reporter : Reporter) (failure : Failure) : Verdict :=
  if failure.causes.any isInvalidConfig then .configInvalid
  else if reporter.fullTrace then .unknown
  else match failure.causes.findSome? ownBlame? with
    | some blame => .collaborator blame
    | none => .unknown

section Verdicts

variable {reporter : Reporter} {failure : Failure}

theorem verdict_of_concernsConfig (h : failure.concernsConfig = true) :
    reporter.verdict failure = .configInvalid := by
  rw [verdict, if_pos h]

theorem verdict_of_fullTrace (h : failure.concernsConfig = false)
    (ht : reporter.fullTrace = true) : reporter.verdict failure = .unknown := by
  rw [verdict, if_neg (by simp [h]), if_pos ht]

theorem verdict_of_blame? (h : failure.concernsConfig = false) (ht : reporter.fullTrace = false) :
    reporter.verdict failure = match failure.blame? with
      | some blame => .collaborator blame
      | none => .unknown := by
  have hconfig : ¬failure.concernsConfig = true := by simp [h]
  have htrace : ¬reporter.fullTrace = true := by simp [ht]
  exact (if_neg hconfig).trans (if_neg htrace)

theorem verdict_eq_configInvalid_iff :
    reporter.verdict failure = .configInvalid ↔ failure.concernsConfig = true := by
  refine ⟨fun h => ?_, verdict_of_concernsConfig⟩
  cases hc : failure.concernsConfig with
  | true => rfl
  | false =>
    cases ht : reporter.fullTrace with
    | true => rw [verdict_of_fullTrace hc ht] at h; cases h
    | false =>
      rw [verdict_of_blame? hc ht] at h
      split at h <;> cases h

theorem verdict_eq_collaborator_iff {blame : Blame} :
    reporter.verdict failure = .collaborator blame ↔
      failure.concernsConfig = false ∧ reporter.fullTrace = false ∧
        failure.blame? = some blame := by
  constructor
  · intro h
    cases hc : failure.concernsConfig with
    | true => rw [verdict_of_concernsConfig hc] at h; cases h
    | false =>
      cases ht : reporter.fullTrace with
      | true => rw [verdict_of_fullTrace hc ht] at h; cases h
      | false =>
        rw [verdict_of_blame? hc ht] at h
        split at h
        next found hfound =>
          cases h
          exact ⟨rfl, rfl, hfound⟩
        next => cases h
  · rintro ⟨hc, ht, hblame⟩
    rw [verdict_of_blame? hc ht, hblame]

theorem dueVerdict_of_ofConfig (h : failure.OfConfig) :
    reporter.dueVerdict failure = .configInvalid := by
  rw [dueVerdict, if_pos ((any_isInvalidConfig_iff failure).mpr h)]

theorem dueVerdict_of_not_ofConfig (h : ¬failure.OfConfig) :
    reporter.dueVerdict failure =
      if reporter.fullTrace then .unknown
      else match failure.causes.findSome? ownBlame? with
        | some blame => .collaborator blame
        | none => .unknown := by
  rw [dueVerdict, if_neg fun hany => h ((any_isInvalidConfig_iff failure).mp hany)]

-- Where no invalid configuration is involved, the verdicts differ if collaborators are named only
-- below a file that failed to parse.
theorem verdict_eq_dueVerdict_of_not_ofConfig (h : ¬failure.OfConfig) :
    reporter.verdict failure = reporter.dueVerdict failure ↔
      (reporter.fullTrace = false → failure.blame? = none →
        failure.causes.findSome? ownBlame? = none) := by
  have hc : failure.concernsConfig = false := by
    rw [← Bool.not_eq_true, concernsConfig_iff]
    exact fun hconcerns => h hconcerns.1
  rw [dueVerdict_of_not_ofConfig h]
  cases ht : reporter.fullTrace with
  | true => simp [verdict_of_fullTrace hc ht]
  | false =>
    rw [verdict_of_blame? hc ht]
    cases hblame : failure.blame? with
    | some blame => simp [findSome?_causes_of_blame? hblame]
    | none => cases failure.causes.findSome? ownBlame? <;> simp

end Verdicts

-- For every failure: the report says that the configuration is invalid if and only if an invalid
-- configuration is among the causes and is not itself what made a file fail to parse. Otherwise it
-- names the outermost collaborator among the contexts around the failure, unless the whole trace
-- was asked for. This is the verdict on the whole chain if and only if no invalid configuration is
-- buried under a file, and no collaborator is named below a file only.
theorem report_of_causes (reporter : Reporter) (failure : Failure) :
    ((reporter.report failure).verdict = .configInvalid ↔ failure.OfConfig ∧ ¬failure.Buried) ∧
    (∀ blame, (reporter.report failure).verdict = .collaborator blame ↔
      ¬(failure.OfConfig ∧ ¬failure.Buried) ∧ reporter.fullTrace = false ∧
        (failure.causes.takeWhile isContext).findSome? ownBlame? = some blame) ∧
    (∀ blame : Blame, blame.isBuiltin = true ↔ ∃ rest, blame.collaborator = "tjsdoc" ++ rest) ∧
    ((reporter.report failure).verdict = reporter.dueVerdict failure ↔
      ¬failure.Buried ∧
        (¬failure.OfConfig → reporter.fullTrace = false →
          (failure.causes.takeWhile isContext).findSome? ownBlame? = none →
            failure.causes.findSome? ownBlame? = none)) := by
  have hverdict : (reporter.report failure).verdict = reporter.verdict failure := rfl
  rw [hverdict, ← blame?_eq_findSome?, ← concernsConfig_iff]
  refine ⟨verdict_eq_configInvalid_iff, fun blame => ?_, Blame.isBuiltin_iff, ?_⟩
  · rw [verdict_eq_collaborator_iff, Bool.not_eq_true]
  · by_cases hconfig : failure.OfConfig
    · rw [dueVerdict_of_ofConfig hconfig, verdict_eq_configInvalid_iff, concernsConfig_iff]
      simp [hconfig]
    · have hburied : ¬failure.Buried := fun h => hconfig h.ofConfig
      rw [verdict_eq_dueVerdict_of_not_ofConfig hconfig]
      simp [hconfig, hburied]

-- An invalid configuration that made a file fail to parse is not told, and a collaborator below
-- the file is not blamed.
theorem buried_causes_unseen :
    (report {} (.parse "src/a.js" (.invalidConfig "'source' is missing"))).verdict ≠
        dueVerdict {} (.parse "src/a.js" (.invalidConfig "'source' is missing")) ∧
      (report {} (.parse "src/a.js"
        (.within (.blame ⟨"watch", "onComplete"⟩) (.text "no disk")))).verdict ≠
        dueVerdict {} (.parse "src/a.js"
          (.within (.blame ⟨"watch", "onComplete"⟩) (.text "no disk"))) := by
  decide

end Reporter

end DocPipeline
