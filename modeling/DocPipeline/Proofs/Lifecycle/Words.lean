import DocPipeline.Lifecycle.Machine
import Mathlib.Data.List.Basic

namespace DocPipeline

-- The steps that enter the stages of a word one after the other.
def Step.path (source : Stage) : List Stage → List Step
  | [] => []
  | target :: word => ⟨source, target⟩ :: path target word

theorem Step.countP_path (source target : Stage) (word : List Stage) :
    (path source word).countP (fun step => step.target = target) = word.count target := by
  induction word generalizing source with
  | nil => rfl
  | cons next word ih => simp [path, List.countP_cons, List.count_cons, ih]

namespace Stage

-- A pass of a run that is kept alive and asked for another pass.
def round : List Stage := [generating, resolving, publishing, completing, idle, regenerating]

def begun (rounds : Nat) : List Stage :=
  [configuring, discovering] ++ (List.replicate rounds round).flatten

-- The word of a run that does not fail, without its last stage. The last pass may idle, too.
def whole (rounds : Nat) (idles : Bool) : List Stage :=
  begun rounds ++ [generating, resolving, publishing, completing] ++ if idles then [idle] else []

theorem begun_succ (rounds : Nat) : begun (rounds + 1) = begun rounds ++ round := by
  rw [begun, begun, List.replicate_succ', List.flatten_append, List.append_assoc]
  simp

theorem count_terminated (word : List Stage) :
    (word ++ [terminated]).count regenerating = word.count regenerating := by
  rw [List.count_append]
  rfl

theorem begun_ne_nil (rounds : Nat) (rest : List Stage) : begun rounds ++ rest ≠ [] := by
  simp [begun]

theorem whole_ne_nil (rounds : Nat) (idles : Bool) : whole rounds idles ≠ [] := by
  rw [whole, List.append_assoc]
  exact begun_ne_nil rounds _

theorem terminated_not_mem_whole (rounds : Nat) (idles : Bool) :
    terminated ∉ whole rounds idles := by
  have hr : terminated ∉ (List.replicate rounds round).flatten := by
    simp [round]
  cases idles <;> simp [whole, begun, hr]

theorem begun_append_begins {rest : List Stage} (rounds : Nat)
    (h : rest <+: [generating, resolving, publishing, completing, idle]) :
    begun rounds ++ rest <+: whole rounds true := by
  rw [whole, List.append_assoc]
  exact (List.prefix_append_right_inj _).mpr h

end Stage

namespace Machine

def push (machine : Machine) (target : Stage) : Machine :=
  ⟨target, ⟨machine.current, target⟩ :: machine.steps⟩

-- A new machine after it entered the stages of a word.
def along (word : List Stage) : Machine := word.foldl push {}

theorem along_append (word rest : List Stage) :
    along (word ++ rest) = rest.foldl push (along word) :=
  List.foldl_append

theorem along_concat (word : List Stage) (target : Stage) :
    along (word ++ [target]) = (along word).push target :=
  along_append word [target]

theorem history_foldl_push (word : List Stage) (machine : Machine) :
    (word.foldl push machine).history = machine.history ++ Step.path machine.current word := by
  induction word generalizing machine with
  | nil => simp [Step.path]
  | cons target word ih =>
    rw [List.foldl_cons, ih]
    simp [history, push, Step.path]

theorem history_along (word : List Stage) : (along word).history = Step.path .init word :=
  history_foldl_push word {}

theorem current_along_ne {word : List Stage} (h : .terminated ∉ word) :
    (along word).current ≠ .terminated := by
  rcases List.eq_nil_or_concat word with rfl | ⟨word, target, rfl⟩
  · exact nofun
  · rw [List.concat_eq_append] at h ⊢
    rw [along_concat]
    rintro rfl
    exact h (by simp)

theorem move_along {word : List Stage} {target : Stage}
    (h : (along word).current.mayPrecede target) :
    (along word).move target = .ok (along (word ++ [target])) := by
  have hterminated : (along word).current ≠ .terminated := by
    intro ht
    simp [ht, Stage.mayPrecede] at h
  rw [move, if_neg hterminated, if_pos h, along_concat, push]

theorem current_begun (rounds : Nat) :
    (along (Stage.begun rounds)).current.mayPrecede .generating := by
  cases rounds with
  | zero => rfl
  | succ rounds =>
    rw [Stage.begun_succ, along_append]
    rfl

theorem move_of_terminated {machine : Machine} (h : machine.current = .terminated)
    (target : Stage) : machine.move target = .error .terminated := if_pos h

theorem current_of_move {machine moved : Machine} {target : Stage}
    (h : machine.move target = .ok moved) : moved.current = target := by
  unfold move at h
  split at h
  · cases h
  · split at h <;> cases h
    rfl

-- The last stage is refused only where it was entered before.
theorem terminated_of_move_error {machine : Machine} {failure : Failure}
    (h : machine.move .terminated = .error failure) : machine.current = .terminated := by
  by_contra hne
  have hmay : machine.current.mayPrecede .terminated = true := by
    simpa [Stage.mayPrecede] using hne
  rw [move, if_neg hne, if_pos hmay] at h
  cases h

end Machine

end DocPipeline
