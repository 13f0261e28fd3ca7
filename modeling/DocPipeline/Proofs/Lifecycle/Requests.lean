import DocPipeline.Proofs.Coordinator.Course
import DocPipeline.Proofs.Lifecycle.Words
import Mathlib.Data.List.Chain

namespace DocPipeline

namespace Stage

-- Each stage of the word may come after the one before it.
def Admissible (source : Stage) (word : List Stage) : Prop :=
  (source :: word).IsChain fun before after => before.mayPrecede after = true

instance (source : Stage) (word : List Stage) : Decidable (Admissible source word) :=
  inferInstanceAs (Decidable (List.IsChain _ _))

theorem Admissible.concat {source target : Stage} {word : List Stage}
    (h : Admissible source word) (ht : (word.getLastD source).mayPrecede target = true) :
    Admissible source (word ++ [target]) := by
  rw [Admissible, ← List.cons_append, List.isChain_append]
  refine ⟨h, List.isChain_singleton _, fun last hlast next hnext => ?_⟩
  rw [List.getLast?_cons, Option.mem_some_iff] at hlast
  rw [List.head?_cons, Option.mem_some_iff] at hnext
  rwa [← hlast, ← hnext, ← List.getLastD_eq_getLast?]

theorem Admissible.mayPrecede {source : Stage} {word : List Stage} (h : Admissible source word) :
    ∀ step ∈ Step.path source word, step.source.mayPrecede step.target = true := by
  induction word generalizing source with
  | nil => exact nofun
  | cons target word ih =>
    obtain ⟨hsource, hword⟩ := List.isChain_cons_cons.mp h
    rintro step (_ | ⟨_, hstep⟩)
    · exact hsource
    · exact ih hword step hstep

theorem Admissible.suffix {source target : Stage} {front rest : List Stage}
    (h : Admissible source (front ++ target :: rest)) : Admissible target rest := by
  rw [Admissible, ← List.cons_append] at h
  exact h.right_of_append

theorem not_mayPrecede_init (stage : Stage) : stage.mayPrecede init = false := by
  cases stage <;> rfl

theorem eq_init_of_mayPrecede {stage : Stage} (h : stage.mayPrecede configuring = true) :
    stage = init := by
  cases stage <;> first | rfl | cases h

theorem eq_configuring_of_mayPrecede {stage : Stage} (h : stage.mayPrecede discovering = true) :
    stage = configuring := by
  cases stage <;> first | rfl | cases h

theorem init_not_mem {source : Stage} {word : List Stage} (h : Admissible source word) :
    init ∉ word := by
  induction word generalizing source with
  | nil => exact List.not_mem_nil
  | cons target word ih =>
    obtain ⟨hsource, hword⟩ := List.isChain_cons_cons.mp h
    rintro (_ | ⟨_, hmem⟩)
    · rw [not_mayPrecede_init] at hsource
      cases hsource
    · exact ih hword hmem

-- Each time it is entered, it is entered from the one stage that may precede it.
theorem count_le_of_only {source before target : Stage} {word : List Stage}
    (honly : ∀ stage : Stage, stage.mayPrecede target = true → stage = before)
    (h : Admissible source word) : word.count target ≤ (source :: word).count before := by
  induction word generalizing source with
  | nil => exact Nat.zero_le _
  | cons next word ih =>
    obtain ⟨hsource, hword⟩ := List.isChain_cons_cons.mp h
    have hrest := ih hword
    rw [List.count_cons, List.count_cons (a := before)]
    by_cases hnext : next = target
    · subst hnext
      simp only [honly source hsource, BEq.rfl, if_true]
      omega
    · simp only [beq_iff_eq, hnext, if_false]
      omega

theorem count_configuring_le_one {word : List Stage} (h : Admissible init word) :
    word.count configuring ≤ 1 := by
  have hcount := count_le_of_only (fun _ => eq_init_of_mayPrecede) h
  rwa [List.count_cons_self, List.count_eq_zero_of_not_mem (init_not_mem h)] at hcount

theorem count_discovering_le_one {word : List Stage} (h : Admissible init word) :
    word.count discovering ≤ 1 := by
  have hcount := count_le_of_only (fun _ => eq_configuring_of_mayPrecede) h
  rw [List.count_cons_of_ne (by decide)] at hcount
  exact le_trans hcount (count_configuring_le_one h)

theorem eq_nil_of_terminated {rest : List Stage} (h : Admissible terminated rest) : rest = [] := by
  cases rest with
  | nil => rfl
  | cons target rest =>
    obtain ⟨hnone, -⟩ := List.isChain_cons_cons.mp h
    cases target <;> cases hnone

theorem count_terminated_le_one {word : List Stage} (h : Admissible init word) :
    word.count terminated ≤ 1 := by
  by_cases hmem : terminated ∈ word
  · obtain ⟨front, rest, rfl, hfront⟩ := List.eq_append_cons_of_mem hmem
    rw [eq_nil_of_terminated h.suffix, List.count_append, List.count_eq_zero_of_not_mem hfront]
    decide
  · rw [List.count_eq_zero_of_not_mem hmem]
    exact Nat.zero_le _

theorem next_eq_of_mayPrecede {source target : Stage} (h : source.mayPrecede target = true)
    (ht : target ≠ terminated) : source.next = some target := by
  have hor : target = terminated ∨ source.next = some target := by
    simpa [mayPrecede] using (Bool.and_eq_true_iff.mp h).2
  exact hor.resolve_left ht

-- Only the last stage of a word can be the last of all stages, so before it the way is forced: of
-- two words that go on from the same stage, one begins with the other.
theorem forced {source : Stage} {word other : List Stage} (hw : Admissible source word)
    (ho : Admissible source other) (hword : terminated ∉ word) (hother : terminated ∉ other) :
    word <+: other ∨ other <+: word := by
  induction word generalizing source other with
  | nil => exact .inl List.nil_prefix
  | cons target word ih =>
    cases other with
    | nil => exact .inr List.nil_prefix
    | cons target' other =>
      obtain ⟨hsource, hw⟩ := List.isChain_cons_cons.mp hw
      obtain ⟨hsource', ho⟩ := List.isChain_cons_cons.mp ho
      have heq : target = target' := Option.some.inj <|
        (next_eq_of_mayPrecede hsource (List.ne_of_not_mem_cons hword).symm).symm.trans
          (next_eq_of_mayPrecede hsource' (List.ne_of_not_mem_cons hother).symm)
      subst heq
      simpa only [List.cons_prefix_cons, true_and] using ih hw ho
        (List.not_mem_of_not_mem_cons hword) (List.not_mem_of_not_mem_cons hother)

-- Two words that a mark ends and that hold it nowhere else cannot begin with one another.
theorem eq_of_prefix_concat {mark : Stage} {word other : List Stage} (hother : mark ∉ other)
    (h : word ++ [mark] <+: other ++ [mark]) : word = other := by
  rcases List.prefix_concat_iff.mp h with heq | hpre
  · exact List.append_cancel_right heq
  · exact absurd (hpre.subset (by simp)) hother

theorem terminated_not_mem_between {source target : Stage} {between rest : List Stage}
    (h : Admissible source (between ++ target :: rest)) : terminated ∉ between := by
  intro hmem
  obtain ⟨front, later, rfl⟩ := List.append_of_mem hmem
  rw [List.append_assoc, List.cons_append] at h
  exact List.append_ne_nil_of_right_ne_nil _ (List.cons_ne_nil _ _) (eq_nil_of_terminated h.suffix)

theorem between_generating {between rest : List Stage}
    (h : Admissible generating (between ++ generating :: rest)) (hmem : generating ∉ between) :
    between = [resolving, publishing, completing, idle, regenerating] := by
  have hloop : Admissible generating
      ([resolving, publishing, completing, idle, regenerating] ++ [generating]) := by
    decide +kernel
  have hway : Admissible generating (between ++ [generating]) := by
    have hsplit : between ++ generating :: rest = (between ++ [generating]) ++ rest := by simp
    rw [hsplit, Admissible, ← List.cons_append] at h
    exact h.left_of_append
  have hbetween : terminated ∉ between ++ [generating] := by
    simpa using terminated_not_mem_between h
  rcases forced hway hloop hbetween (by decide) with hpre | hpre
  · exact eq_of_prefix_concat (by decide) hpre
  · exact (eq_of_prefix_concat hmem hpre).symm

end Stage

theorem Step.map_target_path (source : Stage) (word : List Stage) :
    (path source word).map Step.target = word := by
  induction word generalizing source with
  | nil => rfl
  | cons target word ih => rw [path, List.map_cons, ih]

namespace Machine

-- The answer to a request, together with the machine that it leaves.
def request (machine : Machine) (target : Stage) : Except Failure Step × Machine :=
  match machine.move target with
  | .ok moved => (.ok ⟨machine.current, target⟩, moved)
  | .error failure => (.error failure, machine)

-- A new machine after all the requests, those that it refused among them.
def requested (targets : List Stage) : Machine :=
  targets.foldl (fun machine target => (machine.request target).2) {}

def word (machine : Machine) : List Stage := machine.history.map Step.target

theorem requested_append (targets later : List Stage) :
    requested (targets ++ later) =
      later.foldl (fun machine target => (machine.request target).2) (requested targets) :=
  List.foldl_append

theorem requested_concat (targets : List Stage) (target : Stage) :
    requested (targets ++ [target]) = ((requested targets).request target).2 :=
  requested_append targets [target]

theorem word_along (word : List Stage) : (along word).word = word := by
  rw [Machine.word, history_along, Step.map_target_path]

theorem current_along (word : List Stage) : (along word).current = word.getLastD .init := by
  rcases List.eq_nil_or_concat word with rfl | ⟨word, target, rfl⟩
  · rfl
  · rw [List.concat_eq_append, along_concat, List.getLastD_concat, push]

theorem request_of_mayPrecede {machine : Machine} {target : Stage}
    (h : machine.current.mayPrecede target = true) :
    machine.request target = (.ok ⟨machine.current, target⟩, machine.push target) := by
  have hterminated : machine.current ≠ .terminated := by
    simpa using (Bool.and_eq_true_iff.mp h).1
  rw [request, move, if_neg hterminated, if_pos h, push]

theorem request_of_not {machine : Machine} {target : Stage}
    (h : ¬machine.current.mayPrecede target = true) :
    machine.request target =
      (.error (if machine.current = .terminated then .terminated
        else .illegalStep machine.current target), machine) := by
  by_cases ht : machine.current = .terminated
  · rw [request, move, if_pos ht, if_pos ht]
  · rw [request, move, if_neg ht, if_neg h, if_neg ht]

theorem request_of_terminated {machine : Machine} (h : machine.current = .terminated)
    (target : Stage) : machine.request target = (.error .terminated, machine) := by
  rw [request, move_of_terminated h]

-- A run asks its machine in the same way.
theorem exec_enter_request {ε : Type} (c : Coordinator ε) (target : Stage) :
    exec (Flow.enter target) c =
      match c.machine.request target with
      | (.ok step, machine) => (.ok (), { c with machine }.note (stepEvent step))
      | (.error failure, _) => (.error failure, c) := by
  cases h : c.machine.move target <;> simp only [request, Flow.enter, exec_bind, exec_get, h] <;>
    rfl

-- The machine that entered an admissible word answers by entering one stage more, or stays.
theorem request_along {word : List Stage} (h : Stage.Admissible .init word) (target : Stage) :
    ∃ entered, Stage.Admissible .init entered ∧
      ((along word).request target).2 = along entered := by
  by_cases hmay : (along word).current.mayPrecede target = true
  · refine ⟨word ++ [target], h.concat ?_, ?_⟩
    · rwa [← current_along]
    · rw [request_of_mayPrecede hmay, along_concat]
  · exact ⟨word, h, by rw [request_of_not hmay]⟩

theorem requested_eq_along (targets : List Stage) :
    ∃ word, Stage.Admissible .init word ∧ requested targets = along word := by
  induction targets using List.reverseRecOn with
  | nil => exact ⟨[], List.isChain_singleton _, rfl⟩
  | append_singleton targets target ih =>
    obtain ⟨word, hword, heq⟩ := ih
    rw [requested_concat, heq]
    exact request_along hword target

theorem current_of_terminated_mem {word : List Stage} (h : Stage.Admissible .init word)
    (hmem : .terminated ∈ word) : (along word).current = .terminated := by
  obtain ⟨front, rest, rfl⟩ := List.append_of_mem hmem
  rw [Stage.eq_nil_of_terminated h.suffix, along_concat, push]

-- Once the last stage is entered, no request changes anything.
theorem requested_of_terminated {targets : List Stage}
    (h : (requested targets).current = .terminated) (later : List Stage) :
    requested (targets ++ later) = requested targets := by
  rw [requested_append]
  induction later with
  | nil => rfl
  | cons target later ih => rwa [List.foldl_cons, request_of_terminated h]

-- Whatever a new machine is asked for, allowed or not. Its history is a path from the first stage to
-- the current one, each step of which is allowed. A request is granted exactly if the current stage
-- may precede its target, and then it is the next step; any other is refused and leaves the
-- machine, and the run that asked, as they are. The last stage is entered at most once and nothing
-- after it, for then every request is refused with the one failure. Configuring and discovering are
-- entered at most once each, and from one generating to the next the machine goes through the same
-- five stages.
theorem requests_sound (targets : List Stage) :
    let machine := requested targets
    let word := machine.word
    (machine.history = Step.path .init word ∧
      (∀ step ∈ machine.history, step.source.mayPrecede step.target = true) ∧
      machine.current = word.getLastD .init) ∧
    (∀ target, machine.request target =
        if machine.current.mayPrecede target = true then
          (.ok ⟨machine.current, target⟩, machine.push target)
        else (.error (if machine.current = .terminated then .terminated
          else .illegalStep machine.current target), machine)) ∧
    (∀ (ε : Type) (c : Coordinator ε) (target : Stage),
      exec (Flow.enter target) { c with machine } =
        match machine.request target with
        | (.ok step, moved) => (.ok (), { c with machine := moved }.note (stepEvent step))
        | (.error failure, _) => (.error failure, { c with machine })) ∧
    (word.count .terminated ≤ 1 ∧ ∀ front rest, word = front ++ .terminated :: rest →
      rest = [] ∧ ∀ later target, requested (targets ++ later) = machine ∧
        (requested (targets ++ later)).request target = (.error .terminated, machine)) ∧
    word.count .configuring ≤ 1 ∧ word.count .discovering ≤ 1 ∧
    ∀ front between rest,
      word = front ++ .generating :: (between ++ .generating :: rest) → .generating ∉ between →
        between = [.resolving, .publishing, .completing, .idle, .regenerating] := by
  obtain ⟨word, hword, heq⟩ := requested_eq_along targets
  simp only [heq, word_along]
  refine ⟨⟨history_along word, ?_, current_along word⟩, ?_, ?_,
    ⟨Stage.count_terminated_le_one hword, ?_⟩, Stage.count_configuring_le_one hword,
    Stage.count_discovering_le_one hword, ?_⟩
  · rw [history_along]
    exact Stage.Admissible.mayPrecede hword
  · intro target
    split
    next h => exact request_of_mayPrecede h
    next h => exact request_of_not h
  · intro ε c target
    exact exec_enter_request { c with machine := along word } target
  · rintro front rest rfl
    have hcurrent : (requested targets).current = .terminated := by
      rw [heq]
      exact current_of_terminated_mem hword (by simp)
    refine ⟨Stage.eq_nil_of_terminated hword.suffix, fun later target => ?_⟩
    rw [requested_of_terminated hcurrent]
    exact ⟨heq, by rw [request_of_terminated hcurrent, heq]⟩
  · rintro front between rest rfl hmem
    exact Stage.between_generating hword.suffix hmem

def restless : List Stage :=
  [.publishing, .configuring, .configuring, .discovering, .generating, .resolving, .publishing,
   .idle, .completing, .idle, .init, .regenerating, .configuring, .generating, .terminated,
   .terminated, .regenerating]

-- Of these seventeen requests, ten are granted. Two of them are for generating, and one for the
-- end.
theorem restless_sound :
    (requested restless).word = [.configuring, .discovering] ++ .generating ::
      ([.resolving, .publishing, .completing, .idle, .regenerating] ++ .generating ::
        [.terminated]) ∧
    (∀ between rest, (requested restless).word =
        [.configuring, .discovering] ++ .generating :: (between ++ .generating :: rest) →
      .generating ∉ between →
        between = [.resolving, .publishing, .completing, .idle, .regenerating]) ∧
    ∀ later target, (requested (restless ++ later)).request target =
      (.error .terminated, requested restless) := by
  obtain ⟨-, -, -, ⟨-, hlast⟩, -, -, hbetween⟩ := requests_sound restless
  refine ⟨by decide, hbetween _, fun later target => ?_⟩
  exact ((hlast (.configuring :: .discovering :: .generating :: .resolving :: .publishing ::
    .completing :: .idle :: .regenerating :: [.generating]) [] (by decide)).2 later target).2

end Machine

end DocPipeline
