import DocPipeline.Proofs.Coordinator.Reparse
import DocPipeline.Proofs.Plugin.Answers

namespace DocPipeline

-- Everything that was written to one log was written to the other.
structure Log.Within (log other : Log) : Prop where
  limit : other.limit = log.limit
  events : log.events.Sublist other.events

namespace Log.Within

variable {log other third : Log}

theorem refl (log : Log) : log.Within log := ⟨rfl, List.Sublist.refl _⟩

theorem trans (h : log.Within other) (h' : other.Within third) : log.Within third :=
  ⟨h'.limit.trans h.limit, h.events.trans h'.events⟩

theorem add (h : log.Within other) (event : Event) : (log.add event).Within (other.add event) := by
  have hshows : other.shows event.level = log.shows event.level := by
    rw [Log.shows, Log.shows, h.limit]
  rw [Log.add, Log.add, hshows]
  split
  · exact ⟨h.limit, h.events.append (List.Sublist.refl [event])⟩
  · exact h

theorem addAll (h : log.Within other) (events : List Event) :
    (log.addAll events).Within (other.addAll events) := by
  induction events generalizing log other with
  | nil => exact h
  | cons event events ih => exact ih (h.add event)

theorem self_add (log : Log) (event : Event) : log.Within (log.add event) := by
  rw [Log.add]
  split
  · exact ⟨rfl, List.sublist_append_left _ _⟩
  · exact refl log

theorem self_addAll (log : Log) (events : List Event) : log.Within (log.addAll events) := by
  induction events generalizing log with
  | nil => exact refl log
  | cons event events ih => exact (self_add log event).trans (ih (log.add event))

end Log.Within

def Metrics.withHooks (m : Metrics) (n : Nat) : Metrics :=
  { m with hookInvocations := m.hookInvocations + n }

namespace World

variable {ε : Type} {n : Nat} {world other : World ε}

-- The same world, but for some more invocations that were counted and for what was logged besides.
def Busier (n : Nat) (world other : World ε) : Prop :=
  ∃ log, world.log.Within log ∧
    other = { world with log, metrics := world.metrics.withHooks n }

theorem Busier.note (h : world.Busier n other) (event : Event) :
    (world.note event).Busier n (other.note event) := by
  obtain ⟨log, hlog, rfl⟩ := h
  exact ⟨log.add event, hlog.add event, rfl⟩

theorem Busier.enter (h : world.Busier n other) (call : Call) :
    (Dispatcher.enter call world).Busier n (Dispatcher.enter call other) := by
  obtain ⟨log, hlog, rfl⟩ := h
  refine ⟨log.add call.event, hlog.add call.event, ?_⟩
  simp only [Dispatcher.enter, World.note, Metrics.addHook, Metrics.withHooks]
  rw [Nat.add_right_comm]

theorem Busier.send (h : world.Busier n other) (handle : Handle) (signal : Signal) :
    (other.send handle signal).1 = (world.send handle signal).1 ∧
      (world.send handle signal).2.Busier n (other.send handle signal).2 := by
  obtain ⟨log, hlog, rfl⟩ := h
  simp only [World.send]
  cases world.signals.send? handle signal <;> exact ⟨rfl, log, hlog, rfl⟩

-- Parsing a file again looks at nothing but the files, and leaves its traces in the log and in the
-- count of failures.
theorem exists_reparse (reparser : Reparser) (tree : Tree) (path : Path) :
    ∃ answer event failures, ∀ world : World ε, world.tree = tree →
      world.reparse reparser path = (answer, { world with
        log := world.log.add event, metrics := world.metrics.withFailures failures }) := by
  let file := Candidate.ofFile reparser.plan.dir path
  let result :=
    (Sources.of tree reparser.plan reparser.runtime reparser.package).fileResult file
  let session : Session Unit :=
    ⟨reparser.plan, {}, reparser.package, reparser.runtime, fun _ _ => .done (), none⟩
  refine ⟨result.answer file.relative, ⟨.info, "parse: " ++ file.relative⟩,
    (result.skipped file.relative).length, fun world htree => ?_⟩
  have hparse : (reparser.parse tree path).run.run
      ⟨world.store, world.metrics, world.log, []⟩ = _ :=
    @Session.exec_reparse Unit session path file result tree rfl rfl
      ⟨world.store, world.metrics, world.log, []⟩
  rw [World.reparse, World.assemble, htree, hparse]

theorem Busier.reparse (h : world.Busier n other) (reparser : Reparser) (path : Path) :
    (other.reparse reparser path).1 = (world.reparse reparser path).1 ∧
      (world.reparse reparser path).2.Busier n (other.reparse reparser path).2 := by
  obtain ⟨log, hlog, rfl⟩ := h
  obtain ⟨answer, event, failures, hreparse⟩ :=
    exists_reparse (ε := ε) reparser world.tree path
  rw [hreparse world rfl, hreparse { world with log, metrics := world.metrics.withHooks n } rfl]
  exact ⟨rfl, log.add event, hlog.add event, rfl⟩

end World

-- The same answer and payload, in worlds that are the same but for that.
structure Conduct.Outcome.Busier {ε π α : Type} (n : Nat) (outcome other : Outcome ε π α) :
    Prop where
  result : other.result = outcome.result
  payload : other.payload = outcome.payload
  world : outcome.world.Busier n other.world

section Turns

variable {ε π α : Type} {n : Nat} {world other : World ε} {h : Hook}

-- No step of a collaborator looks at the log or at the counters.
theorem Conduct.run_busier (conduct : Conduct ε π α) (payload : π) (hw : world.Busier n other) :
    (conduct.run payload world).Busier n (conduct.run payload other) := by
  induction conduct generalizing payload world other with
  | done value => exact ⟨rfl, rfl, hw⟩
  | fail failure => exact ⟨rfl, rfl, hw⟩
  | look next ih =>
    obtain ⟨log, hlog, rfl⟩ := hw
    exact ih _ _ payload ⟨log, hlog, rfl⟩
  | remember host next ih =>
    obtain ⟨log, hlog, rfl⟩ := hw
    exact ih payload ⟨log, hlog, rfl⟩
  | edit edited next ih => exact ih edited hw
  | readTree next ih =>
    obtain ⟨log, hlog, rfl⟩ := hw
    exact ih _ payload ⟨log, hlog, rfl⟩
  | setTree tree next ih =>
    obtain ⟨log, hlog, rfl⟩ := hw
    exact ih payload ⟨log, hlog, rfl⟩
  | readStore next ih =>
    obtain ⟨log, hlog, rfl⟩ := hw
    exact ih _ payload ⟨log, hlog, rfl⟩
  | editStore edit next ih =>
    obtain ⟨log, hlog, rfl⟩ := hw
    exact ih payload ⟨log, hlog, rfl⟩
  | send handle signal next ih =>
    obtain ⟨hanswer, hsent⟩ := hw.send handle signal
    simp only [run, hanswer]
    exact ih _ payload hsent
  | accepts handle next ih =>
    obtain ⟨log, hlog, rfl⟩ := hw
    exact ih _ payload ⟨log, hlog, rfl⟩
  | copy handle next ih =>
    obtain ⟨log, hlog, rfl⟩ := hw
    exact ih _ payload ⟨log, hlog, rfl⟩
  | drop handle next ih =>
    obtain ⟨log, hlog, rfl⟩ := hw
    exact ih payload ⟨log, hlog, rfl⟩
  | reparse reparser path next ih =>
    obtain ⟨hanswer, hparsed⟩ := hw.reparse reparser path
    simp only [run, hanswer]
    exact ih _ payload hparsed
  | note event next ih => exact ih payload (hw.note event)

theorem Plugin.respond_busier (plugin : Plugin ε) (occasion : Occasion h) (payload : h.Payload)
    (hw : world.Busier n other) :
    (plugin.respond occasion payload other).1 = (plugin.respond occasion payload world).1 ∧
      (plugin.respond occasion payload world).2.Busier n
        (plugin.respond occasion payload other).2 := by
  cases plugin with
  | diagnostics state =>
    obtain ⟨log, hlog, rfl⟩ := hw
    exact ⟨rfl, rfl, rfl, log.addAll _, hlog.addAll _, rfl⟩
  | custom name respond => exact ⟨rfl, (respond occasion).run_busier payload hw⟩

-- The plugin does not fail at what it is called on, and leaves alone what it is lent and all that
-- another plugin could see. It may log something, and may change within itself.
def Plugin.StandsBy (plugin : Plugin ε) (occasion : Occasion h) (payload : h.Payload)
    (world : World ε) : Prop :=
  ∃ events, (plugin.respond occasion payload world).2 =
    ⟨.ok (), payload, { world with log := world.log.addAll events }⟩

-- The diagnostics stand by wherever they are called.
theorem Plugin.diagnostics_standsBy (state : Diagnostics) (occasion : Occasion h)
    (payload : h.Payload) (world : World ε) :
    (diagnostics state : Plugin ε).StandsBy occasion payload world := ⟨_, rfl⟩

end Turns

namespace Dispatcher

variable {ε : Type} {n : Nat} {world other : World ε} {h : Hook}

-- What a plugin makes of what the turns before it left.
def reply (occasion : Occasion h) (left : Conduct.Outcome ε h.Payload Unit) (plugin : Plugin ε) :
    Plugin ε × Conduct.Outcome ε h.Payload Unit :=
  plugin.respond occasion left.payload (enter ⟨h, plugin.name⟩ left.world)

-- The turn of a plugin. After a failure nobody has a turn.
def turn (occasion : Occasion h) (left : Conduct.Outcome ε h.Payload Unit) (plugin : Plugin ε) :
    Conduct.Outcome ε h.Payload Unit :=
  match left.result with
  | .error _ => left
  | .ok () =>
    let outcome := (reply occasion left plugin).2
    { outcome with result := outcome.result.mapError (·.blamedOn plugin.name h.name) }

theorem foldl_turn_of_error (occasion : Occasion h) (plugins : List (Plugin ε))
    {left : Conduct.Outcome ε h.Payload Unit} {failure : Failure}
    (hf : left.result = .error failure) : plugins.foldl (turn occasion) left = left := by
  induction plugins with
  | nil => rfl
  | cons plugin rest ih =>
    have hturn : turn occasion left plugin = left := by simp only [turn, hf]
    rw [List.foldl_cons, hturn, ih]

theorem callAll_busier (occasion : Occasion h) (plugins : List (Plugin ε)) (payload : h.Payload)
    (hw : world.Busier n other) :
    (callAll occasion plugins payload other).plugins =
        (callAll occasion plugins payload world).plugins ∧
      (callAll occasion plugins payload other).calls =
        (callAll occasion plugins payload world).calls ∧
      (callAll occasion plugins payload world).outcome.Busier n
        (callAll occasion plugins payload other).outcome := by
  induction plugins generalizing payload world other with
  | nil => exact ⟨rfl, rfl, rfl, rfl, hw⟩
  | cons plugin rest ih =>
    obtain ⟨hcalled, hanswer⟩ :=
      plugin.respond_busier occasion payload (hw.enter ⟨h, plugin.name⟩)
    simp only [callAll]
    generalize plugin.respond occasion payload (enter ⟨h, plugin.name⟩ world) = response at *
    generalize plugin.respond occasion payload (enter ⟨h, plugin.name⟩ other) = response' at *
    rcases response with ⟨_, _, _, left⟩
    rcases response' with ⟨called, result, edited, left'⟩
    obtain ⟨hresult, hpayload, hworld⟩ := hanswer
    dsimp only at hcalled hresult hpayload hworld ⊢
    subst hcalled hresult hpayload
    cases result with
    | error cause => exact ⟨rfl, rfl, rfl, rfl, hworld⟩
    | ok _ =>
      obtain ⟨hplugins, hcalls, houtcome⟩ := ih edited hworld
      exact ⟨congrArg (called :: ·) hplugins, congrArg (_ :: ·) hcalls, houtcome⟩

-- What a dispatcher with these plugins, and these calls behind it, does with the hook.
def tell (occasion : Occasion h) (payload : h.Payload) (world : World ε) (calls : List Answer)
    (plugins : List (Plugin ε)) : Dispatcher ε × Conduct.Outcome ε h.Payload Unit :=
  dispatch ⟨plugins, false, calls⟩ occasion payload world

section Tell

variable (occasion : Occasion h) (payload : h.Payload) (world : World ε) (calls : List Answer)

theorem tell_eq (plugins : List (Plugin ε)) : tell occasion payload world calls plugins =
    (⟨(callAll occasion plugins payload world).plugins, false,
      calls ++ (callAll occasion plugins payload world).calls⟩,
      (callAll occasion plugins payload world).outcome) := rfl

theorem tell_nil : tell occasion payload world calls [] =
    (⟨[], false, calls⟩, ⟨.ok (), payload, world⟩) := by
  rw [tell_eq, callAll, List.append_nil]

theorem tell_cons (plugin : Plugin ε) (rest : List (Plugin ε)) :
    tell occasion payload world calls (plugin :: rest) =
      let answer := reply occasion ⟨.ok (), payload, world⟩ plugin
      match answer.2.result with
      | .error cause =>
        (⟨answer.1 :: rest, false, calls ++ [(⟨h, plugin.name⟩, .error cause)]⟩,
          { answer.2 with result := .error (cause.blamedOn plugin.name h.name) })
      | .ok () =>
        let later := tell occasion answer.2.payload answer.2.world
          (calls ++ [(⟨h, plugin.name⟩, .ok ())]) rest
        ({ later.1 with plugins := answer.1 :: later.1.plugins }, later.2) := by
  simp only [tell_eq, callAll, reply]
  cases (plugin.respond occasion payload (enter ⟨h, plugin.name⟩ world)).2.result with
  | error cause => rfl
  | ok _ => simp only [List.append_assoc, List.singleton_append]

theorem tell_outcome (plugins : List (Plugin ε)) :
    (tell occasion payload world calls plugins).2 =
      plugins.foldl (turn occasion) ⟨.ok (), payload, world⟩ := by
  induction plugins generalizing payload world calls with
  | nil => rw [tell_nil, List.foldl_nil]
  | cons plugin rest ih =>
    rw [tell_cons, List.foldl_cons]
    simp only [turn]
    rcases reply occasion ⟨.ok (), payload, world⟩ plugin with ⟨called, result, left, world'⟩
    cases result with
    | error cause => exact (foldl_turn_of_error occasion rest rfl).symm
    | ok _ => exact ih left world' _

theorem tell_append (ps qs : List (Plugin ε)) :
    tell occasion payload world calls (ps ++ qs) =
      let first := tell occasion payload world calls ps
      match first.2.result with
      | .error _ => ({ first.1 with plugins := first.1.plugins ++ qs }, first.2)
      | .ok () =>
        let second := tell occasion first.2.payload first.2.world first.1.calls qs
        ({ second.1 with plugins := first.1.plugins ++ second.1.plugins }, second.2) := by
  induction ps generalizing payload world calls with
  | nil => simp only [tell_nil, List.nil_append]
  | cons plugin rest ih =>
    simp only [List.cons_append, tell_cons]
    rcases reply occasion ⟨.ok (), payload, world⟩ plugin with ⟨called, result, left, world'⟩
    cases result with
    | error cause => rfl
    | ok _ =>
      simp only [ih left world']
      cases (tell occasion left world' (calls ++ [(⟨h, plugin.name⟩, .ok ())]) rest).2.result <;>
        rfl

-- Each call is counted when it is made.
theorem tell_counted (plugins : List (Plugin ε)) :
    (tell occasion payload world calls plugins).2.world.metrics.hookInvocations + calls.length =
      world.metrics.hookInvocations +
        (tell occasion payload world calls plugins).1.calls.length := by
  obtain ⟨-, hcounted, -⟩ := callAll_answers occasion plugins payload world
  rw [tell_eq, hcounted, List.length_append]
  omega

theorem tell_calls {plugins : List (Plugin ε)}
    (hok : (tell occasion payload world calls plugins).2.result = .ok ()) :
    (tell occasion payload world calls plugins).1.calls =
        calls ++ answered (plugins.map Plugin.name) [h] ∧
      (tell occasion payload world calls plugins).2.world.metrics.hookInvocations =
        world.metrics.hookInvocations + plugins.length := by
  obtain ⟨-, -, hanswered, -⟩ := callAll_answers occasion plugins payload world
  have hcalls : (tell occasion payload world calls plugins).1.calls =
      calls ++ answered (plugins.map Plugin.name) [h] := congrArg (calls ++ ·) (hanswered hok)
  refine ⟨hcalls, ?_⟩
  have hcounted := tell_counted occasion payload world calls plugins
  rw [hcalls, List.length_append, answered, List.flatMap_singleton, List.length_map,
    List.length_map] at hcounted
  omega

theorem tell_failing {before : List (Plugin ε)} {plugin : Plugin ε} {cause : Failure}
    (after : List (Plugin ε))
    (hbefore : (tell occasion payload world calls before).2.result = .ok ())
    (hfails : (reply occasion (tell occasion payload world calls before).2 plugin).2.result =
      .error cause) :
    tell occasion payload world calls (before ++ plugin :: after) =
      let answer := reply occasion (tell occasion payload world calls before).2 plugin
      (⟨(tell occasion payload world calls before).1.plugins ++ answer.1 :: after, false,
        calls ++ answered (before.map Plugin.name) [h] ++ [(⟨h, plugin.name⟩, .error cause)]⟩,
        ⟨.error (cause.blamedOn plugin.name h.name), answer.2.payload, answer.2.world⟩) := by
  obtain ⟨hcalls, -⟩ := tell_calls occasion payload world calls hbefore
  rw [tell_append]
  generalize tell occasion payload world calls before = first at *
  rcases first with ⟨⟨plugins, destroyed, made⟩, result, left, world'⟩
  dsimp only at hbefore hcalls
  subst hbefore hcalls
  simp only [tell_cons, hfails]

theorem exists_failing {plugins : List (Plugin ε)} {failure : Failure}
    (hf : (tell occasion payload world calls plugins).2.result = .error failure) :
    ∃ before plugin after cause, plugins = before ++ plugin :: after ∧
      (tell occasion payload world calls before).2.result = .ok () ∧
      (reply occasion (tell occasion payload world calls before).2 plugin).2.result =
        .error cause ∧
      failure = cause.blamedOn plugin.name h.name := by
  induction plugins generalizing payload world calls with
  | nil => cases hf
  | cons plugin rest ih =>
    rw [tell_cons] at hf
    cases hreply : (reply occasion ⟨.ok (), payload, world⟩ plugin).2.result with
    | error cause =>
      simp only [hreply, Except.error.injEq] at hf
      exact ⟨[], plugin, rest, cause, rfl, rfl, hreply, hf.symm⟩
    | ok _ =>
      simp only [hreply] at hf
      obtain ⟨before, failing, after, cause, hsplit, hbefore, hfails, hblamed⟩ := ih _ _ _ hf
      have hlater : (tell occasion payload world calls (plugin :: before)).2 = _ :=
        congrArg Prod.snd ((tell_cons occasion payload world calls plugin before).trans
          (by simp only [hreply]; rfl))
      refine ⟨plugin :: before, failing, after, cause, by rw [hsplit, List.cons_append], ?_, ?_,
        hblamed⟩
      · rw [hlater]
        exact hbefore
      · rw [hlater]
        exact hfails

-- One plugin more makes no difference to the others if it stands by.
theorem tell_insert {before : List (Plugin ε)} {plugin : Plugin ε} (after : List (Plugin ε))
    (hbefore : (tell occasion payload world calls before).2.result = .ok ())
    (hstands : plugin.StandsBy occasion (tell occasion payload world calls before).2.payload
      (enter ⟨h, plugin.name⟩ (tell occasion payload world calls before).2.world)) :
    ∃ rest made,
      (tell occasion payload world calls (before ++ after)).1 =
        ⟨(tell occasion payload world calls before).1.plugins ++ rest, false,
          calls ++ answered (before.map Plugin.name) [h] ++ made⟩ ∧
      (tell occasion payload world calls (before ++ plugin :: after)).1 =
        ⟨(tell occasion payload world calls before).1.plugins ++
            (reply occasion (tell occasion payload world calls before).2 plugin).1 :: rest, false,
          calls ++ answered (before.map Plugin.name) [h] ++
            (⟨h, plugin.name⟩, .ok ()) :: made⟩ ∧
      (tell occasion payload world calls (before ++ after)).2.Busier 1
        (tell occasion payload world calls (before ++ plugin :: after)).2 := by
  obtain ⟨hcalls, -⟩ := tell_calls occasion payload world calls hbefore
  rw [tell_append, tell_append]
  generalize tell occasion payload world calls before = first at *
  rcases first with ⟨⟨plugins, destroyed, earlier⟩, result, left, world'⟩
  dsimp only at hbefore hcalls hstands ⊢
  subst hbefore hcalls
  rw [tell_cons, reply]
  obtain ⟨events, hstands⟩ := hstands
  simp only [hstands]
  have hbusier : world'.Busier 1 { enter ⟨h, plugin.name⟩ world' with
      log := (enter ⟨h, plugin.name⟩ world').log.addAll events } :=
    ⟨_, (Log.Within.self_add _ _).trans (Log.Within.self_addAll _ events), rfl⟩
  obtain ⟨hplugins, hmade, houtcome⟩ := callAll_busier occasion after left hbusier
  refine ⟨_, _, rfl, ?_, houtcome⟩
  simp only [tell_eq, hplugins, hmade, List.append_assoc, List.singleton_append]

-- A dispatch is the turns of the plugins, one after the other. It ends with the first plugin that
-- fails, and the failure names that plugin and the hook. One that stands by may be left out.
theorem dispatch_folds :
    (∀ plugins, (tell occasion payload world calls plugins).2 =
      plugins.foldl (turn occasion) ⟨.ok (), payload, world⟩) ∧
    (∀ ps qs, tell occasion payload world calls (ps ++ qs) =
      let first := tell occasion payload world calls ps
      match first.2.result with
      | .error _ => ({ first.1 with plugins := first.1.plugins ++ qs }, first.2)
      | .ok () =>
        let second := tell occasion first.2.payload first.2.world first.1.calls qs
        ({ second.1 with plugins := first.1.plugins ++ second.1.plugins }, second.2)) ∧
    (∀ plugins, (tell occasion payload world calls plugins).2.result = .ok () →
      (tell occasion payload world calls plugins).1.calls =
        calls ++ answered (plugins.map Plugin.name) [h] ∧
      (tell occasion payload world calls plugins).2.world.metrics.hookInvocations =
        world.metrics.hookInvocations + plugins.length) ∧
    (∀ plugins failure, (tell occasion payload world calls plugins).2.result = .error failure →
      ∃ before plugin after cause, plugins = before ++ plugin :: after ∧
        (tell occasion payload world calls before).2.result = .ok () ∧
        (reply occasion (tell occasion payload world calls before).2 plugin).2.result =
          .error cause ∧
        failure = cause.blamedOn plugin.name h.name) ∧
    (∀ before plugin after cause, (tell occasion payload world calls before).2.result = .ok () →
      (reply occasion (tell occasion payload world calls before).2 plugin).2.result =
        .error cause →
      let answer := reply occasion (tell occasion payload world calls before).2 plugin
      let failure := cause.blamedOn plugin.name h.name
      tell occasion payload world calls (before ++ plugin :: after) =
        (⟨(tell occasion payload world calls before).1.plugins ++ answer.1 :: after, false,
          calls ++ answered (before.map Plugin.name) [h] ++
            [(⟨h, plugin.name⟩, .error cause)]⟩,
          ⟨.error failure, answer.2.payload, answer.2.world⟩) ∧
      answer.2.world.metrics.hookInvocations =
        world.metrics.hookInvocations + (before.length + 1) ∧
      failure.blame? = some ⟨plugin.name, h.name⟩) ∧
    ∀ before plugin after,
      (∀ failure, (tell occasion payload world calls before).2.result = .error failure →
        (tell occasion payload world calls (before ++ plugin :: after)).2 =
          (tell occasion payload world calls (before ++ after)).2 ∧
        (tell occasion payload world calls (before ++ plugin :: after)).1.calls =
          (tell occasion payload world calls (before ++ after)).1.calls) ∧
      ((tell occasion payload world calls before).2.result = .ok () →
        plugin.StandsBy occasion (tell occasion payload world calls before).2.payload
          (enter ⟨h, plugin.name⟩ (tell occasion payload world calls before).2.world) →
        ∃ rest made,
          (tell occasion payload world calls (before ++ after)).1 =
            ⟨(tell occasion payload world calls before).1.plugins ++ rest, false,
              calls ++ answered (before.map Plugin.name) [h] ++ made⟩ ∧
          (tell occasion payload world calls (before ++ plugin :: after)).1 =
            ⟨(tell occasion payload world calls before).1.plugins ++
                (reply occasion (tell occasion payload world calls before).2 plugin).1 :: rest,
              false,
              calls ++ answered (before.map Plugin.name) [h] ++
                (⟨h, plugin.name⟩, .ok ()) :: made⟩ ∧
          (tell occasion payload world calls (before ++ after)).2.Busier 1
            (tell occasion payload world calls (before ++ plugin :: after)).2) := by
  refine ⟨tell_outcome occasion payload world calls, tell_append occasion payload world calls,
    fun _ => tell_calls occasion payload world calls,
    fun _ _ => exists_failing occasion payload world calls, ?_, ?_⟩
  · intro before plugin after cause hbefore hfails
    have hwhole := tell_failing occasion payload world calls after hbefore hfails
    refine ⟨hwhole, ?_, rfl⟩
    have hcounted := tell_counted occasion payload world calls (before ++ plugin :: after)
    rw [hwhole] at hcounted
    simp only [answered, List.flatMap_singleton, List.length_append, List.length_map,
      List.length_singleton] at hcounted
    omega
  · intro before plugin after
    refine ⟨fun failure hf => ?_, tell_insert occasion payload world calls after⟩
    simp only [tell_append, hf, and_self]

end Tell

-- Adds a fragment to those that it is lent, and then goes on as it is told.
def addingPlugin (name : String) (next : Conduct Unit (List Fragment) Unit) : Plugin Unit :=
  .custom name fun {h} _ =>
    match h with
    | .handleVirtual => .look fun _ fragments => .edit (fragments ++ [⟨name, "x"⟩]) next
    | _ => .done ()

theorem refused_dispatch_folds :
    let world : World Unit := { tree := .empty, log := ⟨none, []⟩, host := () }
    let first := addingPlugin "first" (.done ())
    let second := addingPlugin "second" (.fail (.text "refused"))
    let third := addingPlugin "third" (.done ())
    let dispatched := tell (.handleVirtual default) [] world []
    ((dispatched [first, second, third]).2.result =
        .error ((Failure.text "refused").blamedOn "second" "onHandleVirtual") ∧
      (dispatched [first, second, third]).2.payload.map Fragment.label = ["first", "second"] ∧
      (dispatched [first, second, third]).1.calls.map (·.1.plugin) = ["first", "second"] ∧
      (dispatched [first, second, third]).2.world.metrics.hookInvocations = 2) ∧
    (dispatched [first, second, third]).2.Busier 1
      (dispatched [first, .diagnostics {}, second, third]).2 := by
  intro world first second third dispatched
  obtain ⟨-, -, -, -, hfailing, hinsert⟩ :=
    dispatch_folds (.handleVirtual default) [] world []
  obtain ⟨hwhole, hcounted, -⟩ := hfailing [first] second [third] (.text "refused") rfl rfl
  obtain ⟨rest, made, -, -, hbusier⟩ := (hinsert [first] (.diagnostics {}) [second, third]).2 rfl
    (Plugin.diagnostics_standsBy {} _ _ _)
  have hdispatched : dispatched [first, second, third] = _ := hwhole
  refine ⟨?_, hbusier⟩
  rw [hdispatched]
  exact ⟨rfl, rfl, rfl, hcounted⟩

end Dispatcher

end DocPipeline
