import DocPipeline.Proofs.Coordinator.Upkeep
import DocPipeline.Proofs.Plugin.Answers

namespace DocPipeline

namespace Coordinator

variable {ε : Type}

-- Nothing was done with the plugins: they are as they were, and none was called.
structure SamePlugins (c c' : Coordinator ε) : Prop where
  registry : c'.registry = c.registry
  waiting : c'.waiting = c.waiting
  dispatcher : c'.dispatcher = c.dispatcher
  hookInvocations : c'.world.metrics.hookInvocations = c.world.metrics.hookInvocations

theorem SamePlugins.refl (c : Coordinator ε) : c.SamePlugins c := ⟨rfl, rfl, rfl, rfl⟩

theorem SamePlugins.trans {c c' c'' : Coordinator ε} (h : c.SamePlugins c')
    (h' : c'.SamePlugins c'') : c.SamePlugins c'' :=
  ⟨h'.registry.trans h.registry, h'.waiting.trans h.waiting, h'.dispatcher.trans h.dispatcher,
    h'.hookInvocations.trans h.hookInvocations⟩

theorem SamePlugins.of_alike {c c' c'' : Coordinator ε} (h : c.SamePlugins c')
    (ha : c'.Alike c'') : c.SamePlugins c'' :=
  ⟨ha.registry.trans h.registry, ha.waiting.trans h.waiting, ha.dispatcher.trans h.dispatcher,
    ha.metrics ▸ h.hookInvocations⟩

theorem lenient_samePlugins (c : Coordinator ε) : Lenient c.SamePlugins :=
  fun _ _ ha h => h.of_alike ha

-- The plugins have these names, and can be called.
structure Calling (names : List String) (c : Coordinator ε) : Prop where
  names : c.dispatcher.names = names
  ready : c.dispatcher.destroyed = false

-- From one to the other these invocations were made, and all were counted.
structure Made (c c' : Coordinator ε) (made : List Answer) : Prop where
  calls : c'.dispatcher.calls = c.dispatcher.calls ++ made
  counted : c'.world.metrics.hookInvocations = c.world.metrics.hookInvocations + made.length

theorem Made.trans {c c' c'' : Coordinator ε} {made made' : List Answer} (h : c.Made c' made)
    (h' : c'.Made c'' made') : c.Made c'' (made ++ made') := by
  constructor
  · rw [h'.calls, h.calls, List.append_assoc]
  · rw [h'.counted, h.counted, List.length_append, Nat.add_assoc]

-- Where all that was called is counted, all is counted later.
theorem Made.all_counted {c c' : Coordinator ε} {made : List Answer} (h : c.Made c' made)
    (hc : c.world.metrics.hookInvocations = c.dispatcher.calls.length) :
    c'.world.metrics.hookInvocations = c'.dispatcher.calls.length := by
  rw [h.counted, h.calls, hc, List.length_append]

theorem SamePlugins.made {c c' : Coordinator ε} (h : c.SamePlugins c') : c.Made c' [] :=
  ⟨by rw [h.dispatcher, List.append_nil], h.hookInvocations⟩

theorem SamePlugins.calling {c c' : Coordinator ε} {names : List String} (h : c.SamePlugins c')
    (hc : c.Calling names) : c'.Calling names :=
  ⟨h.dispatcher ▸ hc.names, h.dispatcher ▸ hc.ready⟩

end Coordinator

namespace Flow

variable {ε α β : Type}

-- Whether it fails or not, it calls no plugin.
def Silent (m : Flow ε α) : Prop := ∀ c : Coordinator ε, Keeps c.SamePlugins m fun _ => True

-- It calls the plugins at these hooks, and as far as that if it fails.
def Calls (names : List String) (hooks : List Hook) (m : Flow ε α) : Prop :=
  ∀ c : Coordinator ε, c.Calling names →
    (∀ a c', exec m c = (.ok a, c') → c'.Calling names ∧ c.Made c' (answered names hooks)) ∧
    ∀ failure c', exec m c = (.error failure, c') →
      ∃ made, Stops names hooks failure made ∧ c.Made c' made

section Silent

theorem silent_pure (a : α) : Silent (pure a : Flow ε α) := fun _ => keeps_pure trivial

theorem silent_throw (failure : Failure) : Silent (throw failure : Flow ε α) :=
  fun _ => keeps_throw failure

theorem silent_get : Silent (get : Flow ε (Coordinator ε)) :=
  fun _ => keeps_get.mono fun _ _ => trivial

theorem silent_bind {m : Flow ε α} {f : α → Flow ε β} (hm : Silent m)
    (hf : ∀ a, Silent (f a)) : Silent (m >>= f) :=
  fun c => keeps_bind (hm c) fun a _ => hf a c

theorem silent_of_lenient {m : Flow ε α} {Q : α → Prop}
    (h : ∀ {I : Coordinator ε → Prop}, Coordinator.Lenient I → Keeps I m Q) : Silent m :=
  fun c => (h (Coordinator.lenient_samePlugins c)).mono fun _ _ => trivial

theorem silent_note (level : Level) (message : String) :
    Silent (note level message : Flow ε Unit) :=
  silent_of_lenient fun hI => keeps_note hI level message

theorem Silent.of_ok {m : Flow ε α} (hm : Silent m) {c c' : Coordinator ε} {a : α}
    (he : exec m c = (.ok a, c')) : c.SamePlugins c' := ((hm c).of_ok (.refl c) he).1

-- What is kept where nothing is done with the plugins.
theorem Silent.keeps {m : Flow ε α} (hm : Silent m) {I : Coordinator ε → Prop}
    (hI : ∀ {c c' : Coordinator ε}, c.SamePlugins c' → I c → I c') :
    Keeps I m fun _ => True :=
  fun c hc => ⟨hI (hm c c (.refl c)).1 hc, fun _ _ => trivial⟩

theorem silent_work {doing : Work ε α}
    (h : ∀ n, Keeps (fun world => world.metrics.hookInvocations = n) doing fun _ => True) :
    Silent (work doing) := by
  intro c c' hc
  exact ⟨⟨hc.registry, hc.waiting, hc.dispatcher, (h _ c'.world hc.hookInvocations).1⟩,
    fun _ _ => trivial⟩

end Silent

section Works

variable {n : Nat}

theorem steady_hookInvocations :
    World.Steady (fun world : World ε => world.metrics.hookInvocations = n) :=
  ⟨fun _ h => h, fun _ h => h⟩

theorem keeps_perform_hookInvocations (conduct : Conduct ε Unit α) :
    Keeps (fun world => world.metrics.hookInvocations = n) conduct.perform fun _ => True := by
  intro world h
  exact ⟨(congrArg Prod.snd (conduct.run_course () world)).trans h, fun _ _ => trivial⟩

theorem silent_make {factories : Dict (Factory ε α)} (kind : CollaboratorKind)
    (spec : CollaboratorSpec) (options : Option Json) :
    Silent (work (Registry.make factories kind spec options)) :=
  silent_work fun _ => Registry.keeps_make
    (fun _ factory _ options => keeps_perform_hookInvocations (factory options)) kind spec options

theorem silent_noteAll (events : List Event) : Silent (work (Work.noteAll events) : Flow ε Unit) :=
  silent_work fun _ => Work.keeps_noteAll steady_hookInvocations events

theorem silent_act (act : Act α) : Silent (work (Work.act act) : Flow ε α) :=
  silent_work fun _ => Work.keeps_act steady_hookInvocations (keeps_trivial act)

theorem silent_editStore (edit : StoreEdit) : Silent (editStore edit : Flow ε Unit) :=
  silent_bind (silent_work fun _ => keeps_modifyGet fun _ h => ⟨h, trivial⟩) fun _ => silent_pure _

theorem silent_discover (session : Session ε) : Silent (discover session) := by
  apply silent_bind silent_get
  intro c
  have hh : ∀ n dir patterns, Keeps (fun world : World ε => world.metrics.hookInvocations = n)
      (c.hydrator dir patterns).perform fun _ => True :=
    fun n dir patterns => keeps_perform_hookInvocations (c.hydrator dir patterns)
  apply silent_bind (silent_work fun n =>
    (Discovery.keeps_findMain steady_hookInvocations (hh n) session.plan session.state).mono
      fun _ _ => trivial)
  intro main
  apply silent_bind (silent_work fun n =>
    (Discovery.keeps_findTests steady_hookInvocations (hh n) session.plan main.1).mono
      fun _ _ => trivial)
  exact fun _ => silent_pure _

theorem silent_passCandidates (session : Session ε) (before : RunState) :
    Silent (passCandidates session before) := by
  unfold passCandidates
  dsimp only
  split
  · split
    · exact silent_pure _
    · exact silent_discover _
  · exact silent_discover _

theorem silent_assemble {assembling : Assembling α} {y : Yield} (h : Adds assembling y) :
    Silent (assemble assembling : Flow ε (List InvalidCode)) := by
  intro c c' hc
  obtain ⟨store, metrics, log, he, -, hcourse⟩ := exec_assemble h c'
  rw [he]
  exact ⟨⟨hc.registry, hc.waiting, hc.dispatcher,
    (congrArg Prod.snd hcourse).trans hc.hookInvocations⟩, fun _ _ => trivial⟩

theorem silent_resolve (session : Session ε) : Silent (resolve session) := by
  apply silent_bind silent_get
  intro c
  apply silent_bind (silent_editStore _)
  intro _
  split
  · exact silent_pure _
  · exact silent_throw _

theorem silent_publish (session : Session ε) : Silent (publish session) := by
  have hcall : Silent (callPublisher session) := by
    intro c c' hc
    refine ⟨⟨hc.registry, hc.waiting, hc.dispatcher, ?_⟩, fun _ _ => trivial⟩
    exact (congrArg Prod.snd (Conduct.run_course _ _ _)).trans hc.hookInvocations
  apply silent_bind hcall
  intro state
  exact silent_bind (silent_of_lenient fun hI => keeps_reportPass hI _) fun _ => silent_pure _

theorem silent_settle (settings : Settings) (runtime : Runtime) :
    Silent (settle settings runtime : Flow ε (Session ε)) := by
  apply silent_bind silent_get
  intro c
  apply silent_bind (silent_act _)
  rintro ⟨plan, state⟩
  apply silent_bind (silent_of_lenient fun hI => keeps_applyLogLevel hI _)
  intro _
  apply silent_bind silent_get
  intro d
  apply silent_bind (silent_make _ _ _)
  intro publisher
  have hpackage : Silent (loadPackage plan.package : Flow ε Package) := by
    apply silent_bind silent_get
    intro e
    rcases Package.load e.world.tree e.format plan.package with ⟨package, events⟩
    exact silent_bind (silent_noteAll _) fun _ => silent_pure _
  apply silent_bind hpackage
  intro package
  apply silent_bind
  · intro e
    exact keeps_modify fun f hf => ⟨hf.registry, hf.waiting, hf.dispatcher, hf.hookInvocations⟩
  · exact fun _ => silent_pure _

theorem silent_wait (session : Session ε) : Silent (wait session) := by
  have hsignal : Silent (waitForSignal : Flow ε Wait) :=
    silent_of_lenient (Q := fun _ => True) fun hI => keeps_modifyGet fun c hc =>
      ⟨hI c _ ⟨rfl, rfl, rfl, rfl, rfl, rfl, rfl⟩ hc, trivial⟩
  apply silent_bind hsignal
  intro answer
  cases answer with
  | signal signal => exact silent_pure _
  | noHandles => exact silent_bind (silent_note _ _) fun _ => silent_pure _
  | pending => exact silent_pure _

end Works

section Calls

variable {names : List String} {hooks hooks' : List Hook}

theorem Silent.calls {m : Flow ε α} (hm : Silent m) : Calls names [] m := by
  intro c hc
  have hsame := (hm c c (.refl c)).1
  constructor
  · intro a c' he
    rw [he] at hsame
    exact ⟨hsame.calling hc, hsame.made⟩
  · intro failure c' he
    rw [he] at hsame
    exact ⟨[], .nil names failure, hsame.made⟩

theorem calls_bind {m : Flow ε α} {f : α → Flow ε β} (hm : Calls names hooks m)
    (hf : ∀ a, Calls names hooks' (f a)) : Calls names (hooks ++ hooks') (m >>= f) := by
  intro c hc
  obtain ⟨hok, herror⟩ := hm c hc
  rcases he : exec m c with ⟨failure | a, c₁⟩
  · obtain ⟨made, hstops, hmade⟩ := herror failure c₁ he
    rw [exec_bind_of_error he]
    refine ⟨fun _ _ h => (nomatch h), ?_⟩
    rintro _ _ ⟨⟩
    exact ⟨made, hstops.longer hooks', hmade⟩
  · obtain ⟨hc₁, hmade⟩ := hok a c₁ he
    obtain ⟨hok', herror'⟩ := hf a c₁ hc₁
    rw [exec_bind_of_ok he]
    constructor
    · intro b c₂ he₂
      obtain ⟨hc₂, hmade'⟩ := hok' b c₂ he₂
      rw [answered_append]
      exact ⟨hc₂, hmade.trans hmade'⟩
    · intro failure c₂ he₂
      obtain ⟨made, hstops, hmade'⟩ := herror' failure c₂ he₂
      exact ⟨_, hstops.later hooks, hmade.trans hmade'⟩

-- What calls no plugin may come after the hooks as well as before them.
theorem calls_then {m : Flow ε α} {f : α → Flow ε β} (hm : Calls names hooks m)
    (hf : ∀ a, Silent (f a)) : Calls names hooks (m >>= f) := by
  rw [← List.append_nil hooks]
  exact calls_bind hm fun a => (hf a).calls

-- What is done about a failure that is then passed on calls nobody.
theorem calls_tryCatch {m : Flow ε α} (hm : Calls names hooks m)
    {change : Coordinator ε → Coordinator ε}
    (hchange : ∀ c : Coordinator ε, c.SamePlugins (change c)) :
    Calls names hooks (tryCatch m fun failure => do
      modify change
      throw failure) := by
  intro c hc
  obtain ⟨hok, herror⟩ := hm c hc
  rw [exec_tryCatch]
  rcases he : exec m c with ⟨failure | a, c₁⟩
  · obtain ⟨made, hstops, hmade⟩ := herror failure c₁ he
    refine ⟨fun _ _ h => (nomatch h), ?_⟩
    rintro _ _ ⟨⟩
    refine ⟨made, hstops, ?_⟩
    have hafter := hmade.trans (hchange c₁).made
    rwa [List.append_nil] at hafter
  · refine ⟨?_, fun _ _ h => (nomatch h)⟩
    rintro _ _ ⟨⟩
    exact hok a c₁ he

-- A hook calls all plugins, or fails with the one that it calls last.
theorem dispatch_calls {h : Hook} (occasion : Occasion h) (payload : h.Payload)
    {c : Coordinator ε} (hc : c.Calling names) :
    (∀ a c', exec (dispatch occasion payload) c = (.ok a, c') →
      c'.Calling names ∧ c.Made c' (answered names [h])) ∧
    ∀ failure c', exec (dispatch occasion payload) c = (.error failure, c') →
      ∃ made, Raises names h failure made ∧ c.Made c' made := by
  obtain ⟨hnames, hcounted, hok, herror⟩ :=
    Dispatcher.callAll_answers occasion c.dispatcher.plugins payload c.world
  simp only [dispatch, exec_mk, Dispatcher.dispatch, hc.ready, Bool.false_eq_true, if_false]
  generalize Dispatcher.callAll occasion c.dispatcher.plugins payload c.world = round at *
  rcases round with ⟨plugins, made, result, left, world⟩
  rw [show c.dispatcher.plugins.map Plugin.name = names from hc.names] at hok herror
  constructor
  · intro a c' he
    obtain ⟨hresult, rfl⟩ := Prod.mk.inj he
    cases result with
    | error => cases hresult
    | ok _ => exact ⟨⟨hnames.trans hc.names, rfl⟩, ⟨congrArg _ (hok rfl), hok rfl ▸ hcounted⟩⟩
  · intro failure c' he
    obtain ⟨hresult, rfl⟩ := Prod.mk.inj he
    cases result with
    | ok => cases hresult
    | error failure' =>
      cases hresult
      exact ⟨made, herror failure rfl, ⟨rfl, hcounted⟩⟩

theorem calls_dispatch {h : Hook} (occasion : Occasion h) (payload : h.Payload) :
    Calls names [h] (dispatch occasion payload : Flow ε h.Payload) := by
  intro c hc
  obtain ⟨hok, herror⟩ := dispatch_calls occasion payload hc
  refine ⟨hok, fun failure c' he => ?_⟩
  obtain ⟨made, hraises, hmade⟩ := herror failure c' he
  exact ⟨made, hraises.stops, hmade⟩

theorem calls_beginPass (session : Session ε) : Calls names [.start] (beginPass session) :=
  calls_then (calls_dispatch _ _) fun _ => silent_passCandidates _ _

theorem calls_parse (session : Session ε) (candidates : Candidates) :
    Calls names [.handleVirtual] (parse session candidates) := by
  have hfiles : Silent (parseFiles session candidates) := silent_bind silent_get fun c =>
    silent_assemble (adds_files session c.world.tree candidates)
  refine calls_bind hfiles.calls fun _ => calls_then (calls_dispatch _ _) fun fragments => ?_
  have hfragments : Silent (parseFragments session fragments) := silent_bind silent_get fun _ =>
    silent_assemble (Assembly.adds_addFragments _ fragments)
  exact silent_bind hfragments fun _ => silent_pure _

theorem calls_editRecords (plan : Plan) :
    Calls names [.handleDocData, .handleDocDb] (editRecords plan : Flow ε Unit) := by
  apply calls_bind silent_get.calls
  intro c
  apply calls_bind (silent_editStore _).calls
  intro _
  apply calls_bind (calls_dispatch _ _)
  intro records
  apply calls_bind (silent_of_lenient fun hI => keeps_withoutSource hI plan records).calls
  intro shown
  apply calls_bind (silent_editStore _).calls
  intro _
  apply calls_then (calls_dispatch _ _)
  intro _
  exact silent_bind silent_get fun _ => silent_note _ _

theorem calls_regenerate (session : Session ε) :
    Calls names [.regenerate] (regenerate session) := by
  apply calls_bind (silent_editStore _).calls
  intro _
  apply calls_bind silent_get.calls
  intro c
  apply calls_bind (silent_note _ _).calls
  intro _
  exact calls_then (calls_dispatch _ _) fun _ => silent_pure _

-- The handle is dropped whether the hook fails or not.
theorem calls_complete (session : Session ε) : Calls names [.complete] (complete session) := by
  apply calls_bind (silent_of_lenient fun hI => keeps_mintHandle hI).calls
  intro handle
  have hdrop : Silent (dropHandle handle : Flow ε Unit) :=
    silent_of_lenient fun hI => keeps_dropHandle hI handle
  apply calls_then
  · exact calls_tryCatch (calls_dispatch _ _) fun _ => ⟨rfl, rfl, rfl, rfl⟩
  · exact fun _ => silent_bind hdrop fun _ => silent_pure _

end Calls

end Flow

end DocPipeline
