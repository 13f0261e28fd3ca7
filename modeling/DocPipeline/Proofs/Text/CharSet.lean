import DocPipeline.Pattern.Expr

namespace DocPipeline

namespace Text.CharSet

variable {ranges : List (Nat × Nat)}

theorem contains_cons (low high code : Nat) (ranges : List (Nat × Nat)) :
    (mk ((low, high) :: ranges)).contains code = true ↔
      (low ≤ code ∧ code ≤ high) ∨ (mk ranges).contains code = true := by
  simp only [contains, List.any_cons, Bool.or_eq_true, Bool.and_eq_true, decide_eq_true_eq]

-- Joining keeps the first member of the first range.
theorem joinRanges_cons (low high : Nat) (rest : List (Nat × Nat)) :
    ∃ top others, joinRanges ((low, high) :: rest) = (low, top) :: others := by
  rw [joinRanges]
  split
  · split <;> exact ⟨_, _, rfl⟩
  · exact ⟨_, _, rfl⟩

theorem contains_joinRanges (h : ranges.Pairwise fun p q => p.1 ≤ q.1) (code : Nat) :
    (mk (joinRanges ranges)).contains code = true ↔ (mk ranges).contains code = true := by
  induction ranges with
  | nil => rfl
  | cons range rest ih =>
    obtain ⟨low, high⟩ := range
    obtain ⟨hfirst, hrest⟩ := List.pairwise_cons.mp h
    rw [contains_cons, ← ih hrest]
    cases rest with
    | nil => exact contains_cons low high code []
    | cons next rest =>
      obtain ⟨low', high'⟩ := next
      have hlow : low ≤ low' := hfirst _ List.mem_cons_self
      obtain ⟨top, others, hjoined⟩ := joinRanges_cons low' high' rest
      rw [joinRanges, hjoined]
      dsimp only
      rw [contains_cons]
      split
      next htouch =>
        -- No code is skipped between the two, and none comes before the first.
        rw [contains_cons, ← or_assoc]
        refine or_congr_left ?_
        omega
      next => rw [contains_cons, contains_cons]

theorem contains_ofRanges (ranges : List (Nat × Nat)) (code : Nat) :
    (ofRanges ranges).contains code = (mk ranges).contains code := by
  have hsorted : (ranges.mergeSort fun p q => p.1 ≤ q.1).Pairwise fun p q => p.1 ≤ q.1 :=
    (List.pairwise_mergeSort (fun _ _ _ h h' => by simp only [decide_eq_true_eq] at *; omega)
      (fun _ _ => by simp only [Bool.or_eq_true, decide_eq_true_eq]; omega) ranges).imp
      of_decide_eq_true
  rw [Bool.eq_iff_iff, ofRanges, contains_joinRanges hsorted]
  simp only [contains, List.any_eq_true, List.mem_mergeSort]

theorem contains_union (s t : CharSet) (code : Nat) :
    (s.union t).contains code = (s.contains code || t.contains code) := by
  rw [union, contains_ofRanges, contains, List.any_append]
  rfl

-- The ranges of a table increase, so nothing before the first of them is held.
theorem not_contains_rangesOfGaps {next code : Nat} (h : code < next) (gaps : List Nat) :
    (mk (rangesOfGaps next gaps)).contains code = false := by
  fun_induction rangesOfGaps next gaps with
  | case1 next gap size rest ih =>
    rw [Bool.eq_false_iff, ne_eq, contains_cons, ih (by omega)]
    simp only [Bool.false_eq_true, or_false]
    omega
  | case2 next gap =>
    rw [Bool.eq_false_iff, ne_eq, contains_cons]
    simp only [contains, List.any_nil, Bool.false_eq_true, or_false]
    omega
  | case3 next => rfl

theorem not_contains_rangesOfRuns {next code : Nat} (h : code < next) (tagLength : Nat)
    (test : String → Bool) (runs : List (List Char)) :
    (mk (rangesOfRuns tagLength test next runs)).contains code = false := by
  induction runs generalizing next with
  | nil => rfl
  | cons run rest ih =>
    have hrest := @ih (next + number36 (run.drop tagLength)) (by omega)
    rw [rangesOfRuns]
    split
    · rw [Bool.eq_false_iff, ne_eq, contains_cons, hrest]
      simp only [Bool.false_eq_true, or_false]
      omega
    · exact hrest

-- The code point after some runs.
def afterRuns (tagLength next : Nat) (runs : List (List Char)) : Nat :=
  runs.foldl (fun next run => next + number36 (run.drop tagLength)) next

theorem rangesOfRuns_append (tagLength : Nat) (test : String → Bool) (next : Nat)
    (runs others : List (List Char)) :
    rangesOfRuns tagLength test next (runs ++ others) = rangesOfRuns tagLength test next runs ++
      rangesOfRuns tagLength test (afterRuns tagLength next runs) others := by
  induction runs generalizing next with
  | nil => rfl
  | cons run rest ih =>
    simp only [List.cons_append, rangesOfRuns, afterRuns, List.foldl_cons, ih]
    split <;> rfl

end Text.CharSet

namespace Text

theorem words_append (table other : String) :
    words (table ++ " " ++ other) = words table ++ words other := by
  have htext : (table ++ " " ++ other).toList = table.toList ++ ' ' :: other.toList := by
    rw [String.toList_append, String.toList_append, List.append_assoc]
    rfl
  rw [words, htext, List.splitOnP_append_cons _ _ (by rfl), List.filter_append]
  rfl

theorem numbers_append (table other : String) :
    numbers (table ++ " " ++ other) = numbers table ++ numbers other := by
  rw [numbers, words_append, List.map_append]
  rfl

end Text

namespace Pattern

open Text

theorem contains_word (code : Nat) :
    word.contains code = (CharSet.alphabetic.contains code ||
      ((CharSet.mk (CharSet.rangesOfRuns 2 (· ∈ ["Mn", "Mc", "Me", "Nd", "Pc"]) 0
        (words categoryRuns))).contains code || CharSet.joinControl.contains code)) := by
  rw [word, CharSet.contains_union, CharSet.contains_union, CharSet.ofCategory, CharSet.ofRuns,
    CharSet.contains_ofRanges]

section Ascii

variable {code : Nat} (h : code < 128)
include h

theorem contains_alphabetic_ascii : CharSet.alphabetic.contains code = true ↔
    (65 ≤ code ∧ code ≤ 90) ∨ (97 ≤ code ∧ code ≤ 122) := by
  have hall : ∀ later, (CharSet.mk (CharSet.rangesOfGaps 0
      ([65, 26, 6, 26, 47, 1] ++ later))).contains code = true ↔
      (65 ≤ code ∧ code ≤ 90) ∨ (97 ≤ code ∧ code ≤ 122) := by
    intro later
    simp only [List.cons_append, List.nil_append, CharSet.rangesOfGaps, CharSet.contains_cons]
    rw [CharSet.not_contains_rangesOfGaps (by omega)]
    simp only [Bool.false_eq_true, or_false]
    omega
  have hfirst : numbers CharSet.asciiAlphabetic = [65, 26, 6, 26, 47, 1] := by decide +kernel
  rw [CharSet.alphabetic, CharSet.ofGaps, numbers_append, hfirst]
  exact hall _

theorem contains_marks_ascii :
    (CharSet.mk (CharSet.rangesOfRuns 2 (· ∈ ["Mn", "Mc", "Me", "Nd", "Pc"]) 0
      (words categoryRuns))).contains code = true ↔ (48 ≤ code ∧ code ≤ 57) ∨ code = 95 := by
  have hfirst : CharSet.rangesOfRuns 2 (· ∈ ["Mn", "Mc", "Me", "Nd", "Pc"]) 0
      (words asciiRuns) = [(48, 57), (95, 95)] := by decide +kernel
  have hafter : CharSet.afterRuns 2 0 (words asciiRuns) = 160 := by decide +kernel
  rw [categoryRuns, words_append, CharSet.rangesOfRuns_append, hfirst, hafter]
  generalize words laterRuns = later
  rw [List.cons_append, List.cons_append, List.nil_append, CharSet.contains_cons,
    CharSet.contains_cons, CharSet.not_contains_rangesOfRuns (by omega)]
  simp only [Bool.false_eq_true, or_false]
  omega

theorem contains_joinControl_ascii : CharSet.joinControl.contains code = false := by
  have hnumbers : numbers "6bw 2" = [8204, 2] := by decide +kernel
  rw [CharSet.joinControl, CharSet.ofGaps, hnumbers, CharSet.rangesOfGaps, Bool.eq_false_iff,
    ne_eq, CharSet.contains_cons, CharSet.not_contains_rangesOfGaps (by omega)]
  simp only [Bool.false_eq_true, or_false]
  omega

end Ascii

theorem contains_asciiWord (code : Nat) : asciiWord.contains code = true ↔
    (97 ≤ code ∧ code ≤ 122) ∨ (65 ≤ code ∧ code ≤ 90) ∨ (48 ≤ code ∧ code ≤ 57) ∨ code = 95 := by
  have hranges : asciiWord = .ofRanges [(97, 122), (65, 90), (48, 57), (95, 95)] := rfl
  have hnone : (CharSet.mk []).contains code = false := rfl
  rw [hranges, CharSet.contains_ofRanges]
  simp only [CharSet.contains_cons, hnone, Bool.false_eq_true, or_false]
  omega

-- Both ways to tell the characters of words agree on those of ASCII.
theorem isWordChar_of_ascii {c : Char} (h : c.toNat < 128) :
    isWordChar false c = isWordChar true c := by
  simp only [isWordChar, Bool.false_eq_true, if_false, if_true]
  rw [Bool.eq_iff_iff, contains_word, contains_joinControl_ascii h, Bool.or_false,
    Bool.or_eq_true, contains_alphabetic_ascii h, contains_marks_ascii h, contains_asciiWord]
  omega

end Pattern

end DocPipeline
