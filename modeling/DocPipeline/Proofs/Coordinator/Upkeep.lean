import DocPipeline.Proofs.Coordinator.Configure
import DocPipeline.Proofs.Coordinator.Parse

namespace DocPipeline

-- A relation between databases that holds whatever is done to the records and the syntax trees, and
-- that goes on to hold when both are reset.
structure Lasting (R : Database → Database → Prop) : Prop where
  trans : ∀ {a b c}, R a b → R b c → R a c
  contents : ∀ db records asts, R db { db with records, asts }
  reset : ∀ {a b}, R a b → R a.reset b.reset

theorem Lasting.refl {R : Database → Database → Prop} (hR : Lasting R) (db : Database) : R db db :=
  hR.contents db db.records db.asts

namespace Standard

variable {ε : Type} {R : Database → Database → Prop}

-- All collaborators change the database in such a way only, whenever they are called.
def keeping (R : Database → Database → Prop) : Standard ε where
  change := R
  plugin plugin := ∀ (h : Hook) (occasion : Occasion h) (payload : h.Payload) (world : World ε),
    R world.store.db (plugin.respond occasion payload world).2.world.store.db
  runtime runtime := ∀ db, R db (runtime.resolver db).1
  publisher publisher := ∀ plan package, (publisher plan package).Changes R

theorem keeping_fair (hR : Lasting R) : (keeping R : Standard ε).Fair :=
  ⟨hR.refl, hR.trans, fun _ _ _ _ _ => hR.refl _⟩

theorem keeping_governs (hR : Lasting R) (h : Hook) : (keeping R : Standard ε).Governs h := by
  intro plugin hp occasion payload world
  refine ⟨?_, hp h occasion payload world⟩
  cases plugin with
  | diagnostics state => exact (keeping_fair hR).diagnostics _
  | custom name respond => exact hp

end Standard

namespace Coordinator

variable {ε : Type} {std : Standard ε} {passes : Nat} {base : Database} {c : Coordinator ε}

-- A released coordinator has no plugins that could do anything.
theorem Within.release {machine : Machine} (h : c.Within std machine passes base) :
    c.release.Within std machine passes base := by
  refine ⟨h.meets.of_plugins rfl rfl h.meets.waiting ?_, h.machine,
    ⟨h.world.passes, h.world.change⟩⟩
  simp only [Coordinator.release, Dispatcher.destroy]
  split
  · exact h.meets.registered
  · simp

end Coordinator

namespace Flow

section Lenient

variable {ε : Type} {I : Coordinator ε → Prop}

theorem keeps_preparePublishing (hI : Coordinator.Lenient I) (plan : Plan) :
    Keeps I (preparePublishing plan : Flow ε Unit) fun _ => True := by
  have he : Keeps I (emptyDestination plan : Flow ε Unit) fun _ => True := by
    unfold emptyDestination
    split
    · apply keeps_bind keeps_get
      intro c hc
      rcases Destination.empty c.world.tree plan.destination c.dir with ⟨tree, result⟩
      apply keeps_bind (keeps_set (hI c { c with world := { c.world with tree } }
        ⟨rfl, rfl, rfl, rfl, rfl, rfl, rfl⟩ hc))
      intro _ _
      split
      · exact keeps_throw _
      · split
        · exact keeps_note hI _ _
        · exact keeps_pure trivial
    · exact keeps_pure trivial
  exact keeps_bind he fun _ _ => keeps_note hI _ _

theorem keeps_reportPass (hI : Coordinator.Lenient I) (session : Session ε) :
    Keeps I (reportPass session) fun _ => True := by
  unfold reportPass
  cases session.plan.docCoverage <;> cases session.state.invalidCodeReport?
  · exact keeps_pure trivial
  · exact keeps_note hI _ _
  · apply keeps_bind keeps_get
    intro _ _
    exact keeps_bind (keeps_note hI _ _) fun _ _ => keeps_pure trivial
  · apply keeps_bind keeps_get
    intro _ _
    exact keeps_bind (keeps_note hI _ _) fun _ _ => keeps_note hI _ _

theorem keeps_mintHandle (hI : Coordinator.Lenient I) :
    Keeps I (mintHandle : Flow ε Handle) fun _ => True :=
  keeps_modifyGet fun c hc => ⟨hI c _ ⟨rfl, rfl, rfl, rfl, rfl, rfl, rfl⟩ hc, trivial⟩

theorem keeps_dropHandle (hI : Coordinator.Lenient I) (handle : Handle) :
    Keeps I (dropHandle handle : Flow ε Unit) fun _ => True :=
  keeps_modify fun c hc => hI c _ ⟨rfl, rfl, rfl, rfl, rfl, rfl, rfl⟩ hc

theorem keeps_withoutSource (hI : Coordinator.Lenient I) (plan : Plan) (records : List Record) :
    Keeps I (withoutSource plan records : Flow ε (List Record)) fun shown =>
      shown = if plan.includeSource then records else (stripSource records).1 := by
  unfold withoutSource
  split
  · exact keeps_pure rfl
  · exact keeps_bind (keeps_note hI _ _) fun _ _ => keeps_pure rfl

end Lenient

variable {ε : Type} {R : Database → Database → Prop} {machine : Machine} {passes : Nat}
  {base : Database} {session : Session ε}

theorem keeps_passCandidates (hR : Lasting R) (session : Session ε)
    (hm : session.Meets (.keeping R)) (before : RunState) :
    Keeps (Coordinator.Within (.keeping R) machine passes base) (passCandidates session before)
      fun result => result.1.Meets (.keeping R) := by
  have hdiscover : Keeps (Coordinator.Within (.keeping R) machine passes base)
      (discover { session with found := none }) fun result => result.1.Meets (.keeping R) := by
    apply (keeps_discover (Standard.keeping_fair hR) { session with found := none }).mono
    rintro _ ⟨state, _, rfl⟩
    exact hm
  unfold passCandidates
  split
  · split
    · exact keeps_pure hm
    · exact hdiscover
  · exact hdiscover

theorem keeps_beginPass (hR : Lasting R) (hm : session.Meets (.keeping R)) :
    Keeps (Coordinator.Within (.keeping R) machine passes base) (beginPass session)
      fun result => result.1.Meets (.keeping R) := by
  apply keeps_bind
    (keeps_dispatch (Standard.keeping_fair hR) (Standard.keeping_governs hR .start) _ _)
  intro state _
  exact keeps_passCandidates hR { session with state } hm session.state

theorem keeps_assemble (hR : Lasting R) {α : Type} {assembling : Assembling α} {y : Yield}
    (h : Adds assembling y) :
    Keeps (Coordinator.Within (.keeping R) machine passes base)
      (assemble assembling : Flow ε (List InvalidCode)) fun _ => True := by
  intro c hc
  obtain ⟨store, metrics, log, he, hdb, hp⟩ := exec_assemble h c
  rw [he]
  refine ⟨hc.of_world rfl rfl rfl rfl rfl ⟨(congrArg Prod.fst hp).trans hc.world.passes, ?_⟩,
    fun _ _ => trivial⟩
  have hy : R c.world.store.db store.db := by
    rw [hdb]
    exact hR.contents _ _ _
  exact hR.trans hc.world.change hy

theorem keeps_parse (hR : Lasting R) (hm : session.Meets (.keeping R))
    (candidates : Candidates) :
    Keeps (Coordinator.Within (.keeping R) machine passes base) (parse session candidates)
      fun parsed => parsed.Meets (.keeping R) := by
  have hf : Keeps (Coordinator.Within (.keeping R) machine passes base)
      (parseFiles session candidates) fun _ => True :=
    keeps_bind keeps_get fun c _ => keeps_assemble hR (adds_files session c.world.tree candidates)
  apply keeps_bind hf
  intro _ _
  apply keeps_bind
    (keeps_dispatch (Standard.keeping_fair hR) (Standard.keeping_governs hR .handleVirtual) _ _)
  intro fragments _
  have hv : Keeps (Coordinator.Within (.keeping R) machine passes base)
      (parseFragments session fragments) fun _ => True :=
    keeps_bind keeps_get fun c _ => keeps_assemble hR (Assembly.adds_addFragments _ fragments)
  exact keeps_bind hv fun _ _ => keeps_pure hm

theorem keeps_editStore (hR : Lasting R) (edit : StoreEdit)
    (he : ∀ store : Store, R store.db (store.edit edit).1.db) :
    Keeps (Coordinator.Within (.keeping R) machine passes base) (editStore edit : Flow ε Unit)
      fun _ => True := by
  intro c hc
  refine ⟨hc.of_world rfl rfl rfl rfl rfl ⟨hc.world.passes, ?_⟩, fun _ _ => trivial⟩
  exact hR.trans hc.world.change (he c.world.store)

theorem keeps_editRecords (hR : Lasting R) (plan : Plan) :
    Keeps (Coordinator.Within (.keeping R) machine passes base) (editRecords plan : Flow ε Unit)
      fun _ => True := by
  have hs : (Standard.keeping R : Standard ε).Fair := Standard.keeping_fair hR
  apply keeps_bind keeps_get
  intro c _
  apply keeps_bind (keeps_editStore hR .take fun store => hR.contents store.db [] store.db.asts)
  intro _ _
  apply keeps_bind (keeps_dispatch hs (Standard.keeping_governs hR .handleDocData) _ _)
  intro records _
  apply keeps_bind (keeps_withoutSource Coordinator.lenient_within plan records)
  intro stripped _
  apply keeps_bind
    (keeps_editStore hR (.replace stripped) fun store =>
      hR.contents store.db stripped store.db.asts)
  intro _ _
  apply keeps_bind (keeps_dispatch hs (Standard.keeping_governs hR .handleDocDb) _ _)
  intro _ _
  exact keeps_bind keeps_get fun _ _ => keeps_note Coordinator.lenient_within _ _

theorem keeps_resolve (hR : Lasting R) (hm : session.Meets (.keeping R)) :
    Keeps (Coordinator.Within (.keeping R) machine passes base) (resolve session)
      fun _ => True := by
  apply keeps_bind keeps_get
  intro c _
  apply keeps_bind
    (keeps_editStore hR (.update fun db => (session.runtime.resolver db).1) fun store =>
      hm.1 store.db)
  intro _ _
  split
  · exact keeps_pure trivial
  · exact keeps_throw _

theorem keeps_publish (hR : Lasting R) (hm : session.Meets (.keeping R)) :
    Keeps (Coordinator.Within (.keeping R) machine passes base) (publish session)
      fun published => published.Meets (.keeping R) := by
  have hc : Keeps (Coordinator.Within (.keeping R) machine passes base) (callPublisher session)
      fun _ => True := by
    intro c hc
    refine ⟨hc.of_world rfl rfl rfl rfl rfl ⟨?_, ?_⟩, fun _ _ => trivial⟩
    · exact (congrArg Prod.fst (Conduct.run_course _ _ _)).trans hc.world.passes
    · exact hR.trans hc.world.change (hm.2 session.plan session.package session.state c.world)
  apply keeps_bind hc
  intro state _
  exact keeps_bind (keeps_reportPass Coordinator.lenient_within { session with state })
    fun _ _ => keeps_pure hm

theorem keeps_complete (hR : Lasting R) (session : Session ε) :
    Keeps (Coordinator.Within (.keeping R) machine passes base) (complete session)
      fun _ => True := by
  apply keeps_bind (keeps_mintHandle Coordinator.lenient_within)
  intro handle _
  apply keeps_bind
  · apply keeps_tryCatch
      (keeps_dispatch (Standard.keeping_fair hR) (Standard.keeping_governs hR .complete) _ _)
    intro failure
    exact keeps_bind (keeps_dropHandle Coordinator.lenient_within handle) fun _ _ =>
      keeps_throw _
  · intro keepAlive _
    exact keeps_bind (keeps_dropHandle Coordinator.lenient_within handle) fun _ _ =>
      keeps_pure trivial

theorem keeps_shutDown (hR : Lasting R) (plan : Plan) :
    Keeps (Coordinator.Within (.keeping R) machine passes base) (shutDown plan : Flow ε Unit)
      fun _ => True := by
  apply keeps_bind (Q := fun _ => True)
  · apply keeps_tryCatch
    · exact keeps_bind
        (keeps_dispatch (Standard.keeping_fair hR) (Standard.keeping_governs hR .shutdown) _ _)
        fun _ _ => keeps_pure trivial
    · exact fun _ => keeps_pure trivial
  · intro result _
    apply keeps_bind (keeps_modify fun c hc => hc.release)
    intro _ _
    apply keeps_bind keeps_get
    intro c _
    apply keeps_bind (keeps_work (Work.keeps_noteAll World.steady_within _))
    intro _ _
    cases result with
    | ok _ => exact keeps_pure trivial
    | error failure => exact keeps_throw failure

end Flow

end DocPipeline
