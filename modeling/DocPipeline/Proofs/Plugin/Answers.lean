import DocPipeline.Proofs.Coordinator.Configure

namespace DocPipeline

-- All plugins of these names are called at these hooks, one hook after the other, and none fails.
def answered (names : List String) (hooks : List Hook) : List Answer :=
  hooks.flatMap fun hook => names.map fun name => (⟨hook, name⟩, .ok ())

-- The calls of one hook end with a plugin that fails, and the failure is put down to it.
def Raises (names : List String) (hook : Hook) (failure : Failure) (calls : List Answer) : Prop :=
  ∃ first name rest cause, names = first ++ name :: rest ∧
    failure = cause.blamedOn name hook.name ∧
    calls = answered first [hook] ++ [(⟨hook, name⟩, .error cause)]

-- Not all hooks were gone through: what failed was either no plugin, or the last one called.
inductive Stops (names : List String) (hooks : List Hook) (failure : Failure) :
    List Answer → Prop where
  | between {before after : List Hook} (hh : hooks = before ++ after) :
      Stops names hooks failure (answered names before)
  | within {before after : List Hook} {hook : Hook} {calls : List Answer}
      (hh : hooks = before ++ hook :: after) (hr : Raises names hook failure calls) :
      Stops names hooks failure (answered names before ++ calls)

section Answered

variable {names : List String} {hooks more : List Hook} {hook : Hook} {failure : Failure}
  {calls : List Answer}

theorem answered_append (names : List String) (hooks more : List Hook) :
    answered names (hooks ++ more) = answered names hooks ++ answered names more :=
  List.flatMap_append

theorem answered_cons (name : String) (names : List String) (hook : Hook) :
    answered (name :: names) [hook] = (⟨hook, name⟩, .ok ()) :: answered names [hook] := rfl

theorem mem_answered {answer : Answer} (h : answer ∈ answered names hooks) :
    answer.1.hook ∈ hooks ∧ answer.2 = .ok () := by
  obtain ⟨hook, hhook, hanswer⟩ := List.mem_flatMap.mp h
  obtain ⟨name, -, rfl⟩ := List.mem_map.mp hanswer
  exact ⟨hhook, rfl⟩

theorem Raises.prefix_answered (h : Raises names hook failure calls) :
    calls.map Prod.fst <+: (answered names [hook]).map Prod.fst := by
  obtain ⟨first, name, rest, cause, rfl, -, rfl⟩ := h
  refine ⟨(answered rest [hook]).map Prod.fst, ?_⟩
  simp [answered]

theorem Raises.stops (h : Raises names hook failure calls) : Stops names [hook] failure calls :=
  @Stops.within names [hook] failure [] [] hook calls rfl h

namespace Stops

theorem nil (names : List String) (failure : Failure) : Stops names [] failure [] :=
  @between names [] failure [] [] rfl

theorem longer (h : Stops names hooks failure calls) (more : List Hook) :
    Stops names (hooks ++ more) failure calls := by
  cases h with
  | between hh => exact .between (by rw [hh, List.append_assoc])
  | within hh hr => exact .within (by rw [hh, List.append_assoc, List.cons_append]) hr

theorem later (h : Stops names hooks failure calls) (earlier : List Hook) :
    Stops names (earlier ++ hooks) failure (answered names earlier ++ calls) := by
  cases h with
  | between hh =>
    rw [← answered_append]
    exact .between (by rw [hh, List.append_assoc])
  | within hh hr =>
    rw [← List.append_assoc, ← answered_append]
    exact .within (by rw [hh, List.append_assoc]) hr

-- What was called is a beginning of what would have been called without the failure.
theorem prefix_answered (h : Stops names hooks failure calls) :
    calls.map Prod.fst <+: (answered names hooks).map Prod.fst := by
  cases h with
  | between hh =>
    rw [hh, answered_append, List.map_append]
    exact List.prefix_append _ _
  | @within before after hook made hh hr =>
    rw [hh, List.append_cons, answered_append, answered_append, List.map_append, List.map_append,
      List.map_append, List.append_assoc, List.prefix_append_right_inj]
    exact hr.prefix_answered.trans (List.prefix_append _ _)

-- Whoever was called before the last one did not fail.
theorem ok_of_mem_dropLast (h : Stops names hooks failure calls) :
    ∀ answer ∈ calls.dropLast, answer.2 = .ok () := by
  intro answer hanswer
  cases h with
  | between => exact (mem_answered (List.dropLast_subset _ hanswer)).2
  | within hh hr =>
    obtain ⟨first, name, rest, cause, -, -, rfl⟩ := hr
    rw [← List.append_assoc, List.dropLast_concat] at hanswer
    obtain hanswer | hanswer := List.mem_append.mp hanswer <;> exact (mem_answered hanswer).2

-- If the last one failed, that is the failure.
theorem failure_of_getLast? (h : Stops names hooks failure calls) {call : Call} {cause : Failure}
    (hlast : calls.getLast? = some (call, .error cause)) :
    failure = cause.blamedOn call.plugin call.hook.name := by
  cases h with
  | between =>
    have hok := (mem_answered (List.mem_of_getLast? hlast)).2
    cases hok
  | within hh hr =>
    obtain ⟨first, name, rest, cause', -, hf, rfl⟩ := hr
    rw [← List.append_assoc, List.getLast?_concat] at hlast
    cases hlast
    exact hf

end Stops

end Answered

theorem Plugin.respond_name {ε : Type} {h : Hook} (plugin : Plugin ε) (occasion : Occasion h)
    (payload : h.Payload) (world : World ε) :
    (plugin.respond occasion payload world).1.name = plugin.name := by
  cases plugin <;> rfl

namespace Dispatcher

variable {ε : Type} {h : Hook}

-- One after the other is called and counted, and goes by the same name afterwards.
theorem callAll_answers (occasion : Occasion h) (plugins : List (Plugin ε)) (payload : h.Payload)
    (world : World ε) :
    let round := callAll occasion plugins payload world
    round.plugins.map Plugin.name = plugins.map Plugin.name ∧
      round.outcome.world.metrics.hookInvocations =
        world.metrics.hookInvocations + round.calls.length ∧
      (round.outcome.result = .ok () → round.calls = answered (plugins.map Plugin.name) [h]) ∧
      ∀ failure, round.outcome.result = .error failure →
        Raises (plugins.map Plugin.name) h failure round.calls := by
  induction plugins generalizing payload world with
  | nil => exact ⟨rfl, rfl, fun _ => rfl, fun _ hr => by cases hr⟩
  | cons plugin rest ih =>
    have hname := plugin.respond_name occasion payload (enter ⟨h, plugin.name⟩ world)
    have hcourse := plugin.respond_course occasion payload (enter ⟨h, plugin.name⟩ world)
    simp only [callAll]
    generalize plugin.respond occasion payload (enter ⟨h, plugin.name⟩ world) = response at *
    rcases response with ⟨called, result, left, world'⟩
    have hcounted : world'.metrics.hookInvocations = world.metrics.hookInvocations + 1 :=
      congrArg Prod.snd hcourse
    cases result with
    | error cause =>
      refine ⟨congrArg (· :: _) hname, hcounted, ?_, ?_⟩
      · rintro ⟨⟩
      · rintro _ ⟨⟩
        exact ⟨[], plugin.name, rest.map Plugin.name, cause, rfl, rfl, rfl⟩
    | ok _ =>
      obtain ⟨hnames, hcalls, hok, herror⟩ := ih left world'
      refine ⟨?_, ?_, fun hr => ?_, fun failure hr => ?_⟩
      · rw [List.map_cons, List.map_cons, hnames]
        exact congrArg (· :: _) hname
      · rw [hcounted] at hcalls
        exact hcalls.trans (Nat.add_right_comm _ 1 _)
      · rw [List.map_cons, answered_cons, hok hr]
      · obtain ⟨first, name, more, cause, hsplit, hf, hmade⟩ := herror failure hr
        refine ⟨plugin.name :: first, name, more, cause, ?_, hf, ?_⟩
        · rw [List.map_cons, hsplit, List.cons_append]
        · rw [hmade, answered_cons, List.cons_append]

end Dispatcher

end DocPipeline
