import DocPipeline.Discovery.Find
import Mathlib.Data.List.Basic

namespace DocPipeline

-- Whether a pattern is found in a text.
abbrev Matcher := Pattern → String → Bool

namespace Filter

variable {finds : Matcher} {filter filter' : Filter} {text : String} {patterns : List Pattern}
  {position : Nat}

def decideWith (finds : Matcher) (filter : Filter) (text : String) : Decision :=
  match filter.includes.findIdx? (finds · text) with
  | none => .notIncluded
  | some i =>
    match filter.excludes.findIdx? (finds · text) with
    | some j => .excluded j
    | none => .accepted i

def acceptsWith (finds : Matcher) (filter : Filter) (text : String) : Bool :=
  match filter.decideWith finds text with
  | .accepted _ => true
  | _ => false

def Found (finds : Matcher) (patterns : List Pattern) (text : String) : Prop :=
  ∃ pattern ∈ patterns, finds pattern text = true

-- The first of the patterns that are found in a text stands at a position.
def FirstFound (finds : Matcher) (patterns : List Pattern) (text : String) (position : Nat) :
    Prop :=
  ∃ h : position < patterns.length, finds patterns[position] text = true ∧
    ∀ (before : Nat) (_ : before < position), ¬ finds patterns[before] text = true

-- What a decision says of a text.
def Decision.Holds (finds : Matcher) (filter : Filter) (text : String) : Decision → Prop
  | accepted position =>
    FirstFound finds filter.includes text position ∧ ¬ Found finds filter.excludes text
  | notIncluded => ¬ Found finds filter.includes text
  | excluded position =>
    Found finds filter.includes text ∧ FirstFound finds filter.excludes text position

theorem firstFound_iff :
    FirstFound finds patterns text position ↔
      patterns.findIdx? (finds · text) = some position := by
  rw [FirstFound, List.findIdx?_eq_some_iff_getElem]

theorem found_iff : Found finds patterns text ↔ patterns.findIdx? (finds · text) ≠ none := by
  simp [Found]

-- The decision is the one that holds.
theorem decideWith_eq_iff {decision : Decision} :
    filter.decideWith finds text = decision ↔ decision.Holds finds filter text := by
  unfold decideWith
  cases hi : filter.includes.findIdx? (finds · text) with
  | none =>
    cases decision <;> simp [Decision.Holds, firstFound_iff, found_iff, hi]
  | some i =>
    cases he : filter.excludes.findIdx? (finds · text) <;> cases decision <;>
      simp [Decision.Holds, firstFound_iff, found_iff, hi, he]

theorem acceptsWith_iff :
    filter.acceptsWith finds text = true ↔
      Found finds filter.includes text ∧ ¬ Found finds filter.excludes text := by
  unfold acceptsWith decideWith
  cases hi : filter.includes.findIdx? (finds · text) with
  | none => simp [found_iff, hi]
  | some i => cases he : filter.excludes.findIdx? (finds · text) <;> simp [found_iff, hi, he]

theorem Found.mono {patterns' : List Pattern} (hsub : patterns ⊆ patterns')
    (h : Found finds patterns text) : Found finds patterns' text := by
  obtain ⟨pattern, hpattern, hfinds⟩ := h
  exact ⟨pattern, hsub hpattern, hfinds⟩

theorem acceptsWith_mono (hi : filter.includes ⊆ filter'.includes)
    (he : filter'.excludes ⊆ filter.excludes) (h : filter.acceptsWith finds text = true) :
    filter'.acceptsWith finds text = true := by
  rw [acceptsWith_iff] at h ⊢
  exact ⟨h.1.mono hi, fun hfound => h.2 (hfound.mono he)⟩

-- Filters with the same members accept the same texts.
theorem acceptsWith_congr (hi : ∀ pattern, pattern ∈ filter.includes ↔ pattern ∈ filter'.includes)
    (he : ∀ pattern, pattern ∈ filter.excludes ↔ pattern ∈ filter'.excludes) :
    filter.acceptsWith finds text = filter'.acceptsWith finds text := by
  rw [Bool.eq_iff_iff]
  exact ⟨acceptsWith_mono (fun _ => (hi _).mp) fun _ => (he _).mpr,
    acceptsWith_mono (fun _ => (hi _).mpr) fun _ => (he _).mp⟩

end Filter

namespace Candidate

variable {finds : Matcher} {filter filter' : Filter}

def selectWith (finds : Matcher) (dir : Path) (files : List Path) (filter : Filter) :
    List Candidate :=
  (files.map (ofFile dir)).filter fun candidate => filter.acceptsWith finds candidate.relative

theorem selectWith_sublist (dir : Path) (files : List Path)
    (hi : filter.includes ⊆ filter'.includes) (he : filter'.excludes ⊆ filter.excludes) :
    (selectWith finds dir files filter).Sublist (selectWith finds dir files filter') :=
  List.monotone_filter_right _ fun _ => Filter.acceptsWith_mono hi he

theorem length_selectWith_le (finds : Matcher) (dir : Path) (files : List Path) (filter : Filter) :
    (selectWith finds dir files filter).length ≤ files.length := by
  have hmap : (files.map (ofFile dir)).length = files.length := List.length_map _
  exact hmap ▸ List.length_filter_le _ _

def skipEventWith? (finds : Matcher) (filter : Filter) (candidate : Candidate) : Option Event :=
  match filter.decideWith finds candidate.relative with
  | .accepted _ => none
  | .notIncluded => some ⟨.trace, "skip (no include match): " ++ candidate.relative⟩
  | .excluded position =>
    some ⟨.trace, "skip (exclude #" ++ toString position ++ "): " ++ candidate.relative⟩

def skipEventsWith (finds : Matcher) (dir : Path) (files : List Path) (filter : Filter) :
    List Event :=
  (files.map (ofFile dir)).filterMap (skipEventWith? finds filter)

end Candidate

end DocPipeline
